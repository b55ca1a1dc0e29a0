import Tangerine.Dex.App
import Tangerine.Library.Transition
import Mathlib.Algebra.BigOperators.Group.List.Basic

/-! The confirmed-block bookkeeping of `DexconApp` over every run (`dex/app.go`). -/

namespace Tangerine.Proof.ConfirmedBlocks

open Tangerine.Common Tangerine.Dex Tangerine.Library Function

variable (ext : AppExternals)

/-! ### What the undelivered blocks determine -/

/-- The transactions of a list that `a` sent. -/
def txsFrom (a : Address) (txs : List Transaction) : List Transaction :=
  txs.filter fun tx => (ext.sender tx).toOption = some a

/-- Summed cost of transactions. -/
def costOf (txs : List Transaction) : Nat := (txs.map Transaction.cost).sum

/-- A block's entry in its `addresses` map. -/
def blockCost (a : Address) (txs : List Transaction) : Option Nat :=
  if txsFrom ext a txs = [] then none else some (costOf (txsFrom ext a txs))

/-- `a` sent a transaction of one of the blocks. -/
def SentIn (a : Address) (blocks : List BlockInfo) : Prop :=
  ∃ info ∈ blocks, ∃ tx ∈ info.txs, (ext.sender tx).toOption = some a

instance (a : Address) (blocks : List BlockInfo) : Decidable (SentIn ext a blocks) :=
  inferInstanceAs (Decidable (∃ info ∈ blocks, _))

/-- The number of blocks with a transaction from `a`. -/
def blocksFrom (a : Address) (blocks : List BlockInfo) : Nat :=
  (blocks.filter fun info => txsFrom ext a info.txs ≠ []).length

/-- The summed cost of `a`'s transactions in the blocks. -/
def costFrom (a : Address) (blocks : List BlockInfo) : Nat :=
  (blocks.map fun info => costOf (txsFrom ext a info.txs)).sum

/-- The nonces of `a`'s transactions, block after block. -/
def noncesFrom (a : Address) (blocks : List BlockInfo) : List Nat :=
  blocks.flatMap fun info => (txsFrom ext a info.txs).map Transaction.nonce

/-- `addressCounter`, as the blocks determine it. -/
def expectedCounter (blocks : List BlockInfo) (a : Address) : Option Nat :=
  if SentIn ext a blocks then some (blocksFrom ext a blocks) else none

/-- `addressCost`, as the blocks determine it. -/
def expectedCost (blocks : List BlockInfo) (a : Address) : Option Int :=
  if SentIn ext a blocks then some (costFrom ext a blocks) else none

/-- `addressNonce`, as the blocks determine it: the largest nonce. -/
def expectedNonce (blocks : List BlockInfo) (a : Address) : Option Nat :=
  (noncesFrom ext a blocks).max?

section Spec

variable {ext} {a : Address}

theorem txsFrom_append_of_sender {txs : List Transaction} {tx : Transaction}
    (sent : ext.sender tx = .ok a) : txsFrom ext a (txs ++ [tx]) = txsFrom ext a txs ++ [tx] := by
  simp [txsFrom, List.filter_append, sent, Except.toOption]

theorem txsFrom_append_of_ne {txs : List Transaction} {tx : Transaction} {sender : Address}
    (sent : ext.sender tx = .ok sender) (other : a ≠ sender) :
    txsFrom ext a (txs ++ [tx]) = txsFrom ext a txs := by
  simp [txsFrom, List.filter_append, sent, Except.toOption, Ne.symm other]

theorem txsFrom_eq_nil_iff {txs : List Transaction} :
    txsFrom ext a txs = [] ↔ ∀ tx ∈ txs, (ext.sender tx).toOption ≠ some a := by
  simp [txsFrom, List.filter_eq_nil_iff]

theorem sentIn_iff_txsFrom {blocks : List BlockInfo} :
    SentIn ext a blocks ↔ ∃ info ∈ blocks, txsFrom ext a info.txs ≠ [] := by
  simp only [SentIn, ne_eq, txsFrom_eq_nil_iff, not_forall, not_not, exists_prop]

theorem sentIn_append {blocks : List BlockInfo} {info : BlockInfo} :
    SentIn ext a (blocks ++ [info]) ↔ SentIn ext a blocks ∨ txsFrom ext a info.txs ≠ [] := by
  simp [sentIn_iff_txsFrom, or_and_right, exists_or]

theorem sentIn_cons {blocks : List BlockInfo} {info : BlockInfo} :
    SentIn ext a (info :: blocks) ↔ txsFrom ext a info.txs ≠ [] ∨ SentIn ext a blocks := by
  simp [sentIn_iff_txsFrom]

theorem blocksFrom_append {blocks : List BlockInfo} {info : BlockInfo} :
    blocksFrom ext a (blocks ++ [info]) =
      blocksFrom ext a blocks + if txsFrom ext a info.txs = [] then 0 else 1 := by
  by_cases none : txsFrom ext a info.txs = [] <;> simp [blocksFrom, List.filter_append, none]

theorem blocksFrom_cons {blocks : List BlockInfo} {info : BlockInfo} :
    blocksFrom ext a (info :: blocks) =
      (if txsFrom ext a info.txs = [] then 0 else 1) + blocksFrom ext a blocks := by
  by_cases none : txsFrom ext a info.txs = []
  · simp [blocksFrom, none]
  · simp [blocksFrom, none, Nat.add_comm]

theorem blocksFrom_pos_iff {blocks : List BlockInfo} :
    0 < blocksFrom ext a blocks ↔ SentIn ext a blocks := by
  simp [blocksFrom, List.length_pos_iff_exists_mem, List.mem_filter, sentIn_iff_txsFrom]

theorem costFrom_append {blocks : List BlockInfo} {info : BlockInfo} :
    costFrom ext a (blocks ++ [info]) = costFrom ext a blocks + costOf (txsFrom ext a info.txs) := by
  simp [costFrom]

theorem costFrom_cons {blocks : List BlockInfo} {info : BlockInfo} :
    costFrom ext a (info :: blocks) = costOf (txsFrom ext a info.txs) + costFrom ext a blocks := by
  simp [costFrom]

theorem costFrom_of_not_sentIn {blocks : List BlockInfo} (silent : ¬SentIn ext a blocks) :
    costFrom ext a blocks = 0 := by
  rw [sentIn_iff_txsFrom] at silent
  push Not at silent
  apply List.sum_eq_zero
  intro cost member
  obtain ⟨info, infoMember, rfl⟩ := List.mem_map.mp member
  simp [silent info infoMember, costOf]

theorem noncesFrom_append {blocks : List BlockInfo} {info : BlockInfo} :
    noncesFrom ext a (blocks ++ [info]) =
      noncesFrom ext a blocks ++ (txsFrom ext a info.txs).map Transaction.nonce := by
  simp [noncesFrom]

theorem noncesFrom_cons {blocks : List BlockInfo} {info : BlockInfo} :
    noncesFrom ext a (info :: blocks) =
      (txsFrom ext a info.txs).map Transaction.nonce ++ noncesFrom ext a blocks := by
  simp [noncesFrom]

theorem noncesFrom_eq_nil_iff {blocks : List BlockInfo} :
    noncesFrom ext a blocks = [] ↔ ¬SentIn ext a blocks := by
  simp [noncesFrom, sentIn_iff_txsFrom]

theorem costOf_append (txs : List Transaction) (tx : Transaction) :
    costOf (txs ++ [tx]) = costOf txs + tx.cost := by
  simp [costOf]

theorem blockCost_getD (a : Address) (txs : List Transaction) :
    (blockCost ext a txs).getD 0 = costOf (txsFrom ext a txs) := by
  unfold blockCost
  split
  · next none => simp [none, costOf]
  · rfl

theorem expectedCounter_getD (blocks : List BlockInfo) (a : Address) :
    (expectedCounter ext blocks a).getD 0 = blocksFrom ext a blocks := by
  unfold expectedCounter
  split
  · rfl
  · next silent =>
      have zero : ¬0 < blocksFrom ext a blocks := fun pos => silent (blocksFrom_pos_iff.mp pos)
      simp only [Option.getD_none]
      omega

/-- In a list of increasing numbers the last is the largest. -/
theorem le_of_getLast? {nonces : List Nat} (increasing : nonces.Pairwise (· < ·)) {last : Nat}
    (found : nonces.getLast? = some last) : ∀ nonce ∈ nonces, nonce ≤ last := by
  obtain ⟨init, rfl⟩ : ∃ init, nonces = init ++ [last] := List.getLast?_eq_some_iff.mp found
  intro nonce member
  rcases List.mem_append.mp member with earlier | here
  · exact Nat.le_of_lt (List.pairwise_append.mp increasing |>.2.2 nonce earlier last (by simp))
  · simp only [List.mem_singleton] at here
    omega

end Spec

/-! ### One confirmation -/

/-- A confirmed block's entry in `confirmedBlocks`. -/
def entryOf (info : BlockInfo) : Σ _ : Hash, BlockInfo := ⟨info.block.hash, info⟩

/-- The app's bookkeeping against the undelivered blocks, listed in confirmation order. -/
structure Bookkept (queue : List BlockInfo) (d : DexconApp) : Prop where
  entries : d.confirmedBlocks.entries.Perm (queue.map entryOf)
  undelivered : d.undeliveredNum = queue.length
  addresses : ∀ info ∈ queue, ∀ a, info.addresses.lookup a = blockCost ext a info.txs
  counter : d.addressCounter = expectedCounter ext queue
  cost : d.addressCost = expectedCost ext queue
  nonce : ∀ a, d.addressNonce a = (noncesFrom ext a queue).getLast?
  increasing : ∀ a, (noncesFrom ext a queue).Pairwise (· < ·)

/-- Inside `addConfirmedBlock`, once the transactions `done` of the block are recorded. -/
structure Confirming (queue : List BlockInfo) (d : DexconApp) (done : List Transaction)
    (acc : AddressMap × DexconApp) : Prop where
  addresses : ∀ a, acc.1.lookup a = blockCost ext a done
  nonce : ∀ a, acc.2.addressNonce a =
    (noncesFrom ext a queue ++ (txsFrom ext a done).map Transaction.nonce).getLast?
  increasing : ∀ a,
    (noncesFrom ext a queue ++ (txsFrom ext a done).map Transaction.nonce).Pairwise (· < ·)
  cost : ∀ a, acc.2.addressCost a =
    if SentIn ext a queue ∨ txsFrom ext a done ≠ [] then
      some ((costFrom ext a queue : Int) + costOf (txsFrom ext a done))
    else none
  counter : acc.2.addressCounter = d.addressCounter
  confirmedBlocks : acc.2.confirmedBlocks = d.confirmedBlocks
  undelivered : acc.2.undeliveredNum = d.undeliveredNum

variable {ext}

theorem confirmTransaction_spec {acc acc' : AddressMap × DexconApp} {tx : Transaction}
    (stepped : DexconApp.confirmTransaction ext acc tx = .ok acc') :
    ∃ sender, ext.sender tx = .ok sender ∧
      (∀ nonce, acc.2.addressNonce sender = some nonce → nonce < tx.nonce) ∧
      acc' = (acc.1.insert sender ((acc.1.lookup sender).getD 0 + tx.cost),
        { acc.2 with
          addressNonce := update acc.2.addressNonce sender (some tx.nonce)
          addressCost := update acc.2.addressCost sender
            (some ((acc.2.addressCost sender).getD 0 + tx.cost)) }) := by
  unfold DexconApp.confirmTransaction at stepped
  split at stepped
  · cases stepped
  · next sender sent =>
    refine ⟨sender, sent, ?_⟩
    dsimp only at stepped
    -- the two branches of Go's `if addrInfo, exist := addressMap[from]` agree with `getD`
    cases cached : acc.2.addressNonce sender with
    | none =>
        simp only [cached, Bool.not_true, Bool.false_eq_true, if_false] at stepped
        constructor
        · intro _ absent
          cases absent
        · rw [← Except.ok.inj stepped]
          cases acc.1.lookup sender <;> simp
    | some nonce =>
        by_cases grown : nonce < tx.nonce
        · simp only [cached, grown, decide_true, Bool.not_true, Bool.false_eq_true, if_false]
            at stepped
          constructor
          · intro _ same
            cases same
            exact grown
          · rw [← Except.ok.inj stepped]
            cases acc.1.lookup sender <;> simp
        · simp [cached, grown] at stepped

theorem Bookkept.confirming {queue : List BlockInfo} {d : DexconApp}
    (bookkept : Bookkept ext queue d) : Confirming ext queue d [] (∅, d) where
  addresses := fun a => by simp [blockCost, txsFrom]
  nonce := fun a => by simp [bookkept.nonce a, txsFrom]
  increasing := fun a => by simpa [txsFrom] using bookkept.increasing a
  cost := fun a => by simp [bookkept.cost, expectedCost, txsFrom, costOf]
  counter := rfl
  confirmedBlocks := rfl
  undelivered := rfl

/-- One transaction of the loop: only its sender's entries move. -/
theorem Confirming.step {queue : List BlockInfo} {d : DexconApp} {done : List Transaction}
    {acc acc' : AddressMap × DexconApp} {tx : Transaction}
    (confirming : Confirming ext queue d done acc)
    (stepped : DexconApp.confirmTransaction ext acc tx = .ok acc') :
    Confirming ext queue d (done ++ [tx]) acc' := by
  obtain ⟨sender, sent, fresh, rfl⟩ := confirmTransaction_spec stepped
  constructor
  · intro a
    by_cases same : a = sender
    · subst same
      rw [AList.lookup_insert, confirming.addresses, blockCost_getD, blockCost,
        txsFrom_append_of_sender sent, costOf_append]
      simp
    · rw [AList.lookup_insert_ne same, confirming.addresses, blockCost, blockCost,
        txsFrom_append_of_ne sent same]
  · intro a
    by_cases same : a = sender
    · subst same
      simp [txsFrom_append_of_sender sent]
    · show update acc.2.addressNonce sender (some tx.nonce) a = _
      rw [update_of_ne same, confirming.nonce a, txsFrom_append_of_ne sent same]
  · intro a
    by_cases same : a = sender
    · subst same
      have cached := confirming.nonce a
      have increasing := confirming.increasing a
      rw [txsFrom_append_of_sender sent, List.map_append, ← List.append_assoc,
        List.pairwise_append]
      refine ⟨increasing, List.pairwise_singleton _ _, ?_⟩
      intro earlier member later latest
      simp only [List.map_cons, List.map_nil, List.mem_singleton] at latest
      subst latest
      -- the nonce the map holds is the last one so far, and the largest
      have found := List.getLast?_eq_some_getLast (List.ne_nil_of_mem member)
      exact Nat.lt_of_le_of_lt (le_of_getLast? increasing found earlier member)
        (fresh _ (cached.trans found))
    · rw [txsFrom_append_of_ne sent same]
      exact confirming.increasing a
  · intro a
    by_cases same : a = sender
    · subst same
      -- the cost so far, whether or not the map held one
      have sofar : (acc.2.addressCost a).getD 0 =
          (costFrom ext a queue : Int) + costOf (txsFrom ext a done) := by
        rw [confirming.cost a]
        split
        · rfl
        · next silent =>
            push Not at silent
            simp [costFrom_of_not_sentIn silent.1, silent.2, costOf]
      show update acc.2.addressCost a _ a = _
      rw [update_self, sofar, txsFrom_append_of_sender sent, costOf_append, if_pos (Or.inr (by simp))]
      push_cast
      rw [Int.add_assoc]
    · show update acc.2.addressCost sender _ a = _
      rw [update_of_ne same, confirming.cost a, txsFrom_append_of_ne sent same]
  · exact confirming.counter
  · exact confirming.confirmedBlocks
  · exact confirming.undelivered

/-- The loop over a block's senders adds one to each of their counters. -/
theorem counters_incremented {keys : List Address} (distinct : keys.Nodup) (d : DexconApp)
    (a : Address) :
    (keys.foldl (fun d addr => d.incAddressCounter addr) d).addressCounter a =
      if a ∈ keys then some ((d.addressCounter a).getD 0 + 1) else d.addressCounter a := by
  have written : ∀ (state : DexconApp) (addr : Address),
      (state.incAddressCounter addr).addressCounter (id addr) =
        some ((state.addressCounter (id addr)).getD 0 + 1) := by
    intro state addr
    simp [DexconApp.incAddressCounter]
  have others : ∀ (state : DexconApp) (addr key : Address), key ≠ id addr →
      (state.incAddressCounter addr).addressCounter key = state.addressCounter key := by
    intro state addr key other
    simp only [DexconApp.incAddressCounter]
    exact update_of_ne other _ _
  split
  · next member =>
    exact foldl_pointwise_of_mem (fun (d : DexconApp) (a : Address) => d.addressCounter a) id
      (fun (counter : Option Nat) (_ : Address) => some (counter.getD 0 + 1)) written others
      (by simpa using distinct) member d
  · next absent =>
    have untouched : ∀ addr ∈ keys, id addr ≠ a := by
      intro addr member same
      have same : addr = a := same
      rw [same] at member
      exact absent member
    exact foldl_pointwise_of_not_mem (fun (d : DexconApp) (a : Address) => d.addressCounter a) id
      others untouched d

/-- A confirmation of a block whose hash is not stored appends it to the undelivered blocks. -/
theorem Bookkept.confirm {queue : List BlockInfo} {d d' : DexconApp} {block : Block}
    (bookkept : Bookkept ext queue d) (fresh : block.hash ∉ d.confirmedBlocks)
    (confirmed : d.blockConfirmed ext block = .ok d') {info : BlockInfo}
    (stored : d'.confirmedBlocks.lookup block.hash = some info) :
    Bookkept ext (queue ++ [info]) d' := by
  unfold DexconApp.blockConfirmed DexconApp.addConfirmedBlock at confirmed
  obtain ⟨txs, -, recorded⟩ := except_bind_eq_ok.mp confirmed
  obtain ⟨⟨addressMap, recordedApp⟩, folded, done⟩ := except_bind_eq_ok.mp recorded
  -- the transaction loop, carried by `Confirming` over the transactions done so far
  have preserved : ∀ tx (rest : List Transaction) (acc next : AddressMap × DexconApp),
      (∃ doneTxs, doneTxs ++ tx :: rest = txs ∧ Confirming ext queue d doneTxs acc) →
      DexconApp.confirmTransaction ext acc tx = .ok next →
      ∃ doneTxs, doneTxs ++ rest = txs ∧ Confirming ext queue d doneTxs next := by
    rintro tx rest acc next ⟨doneTxs, split, confirming⟩ stepped
    exact ⟨doneTxs ++ [tx], by simpa using split, confirming.step stepped⟩
  obtain ⟨doneTxs, all, confirming⟩ := @foldlM_invariant_rest _ _ _
    (fun rest acc => ∃ doneTxs, doneTxs ++ rest = txs ∧ Confirming ext queue d doneTxs acc) _
    preserved txs _ _ ⟨[], rfl, bookkept.confirming⟩ folded
  rw [List.append_nil] at all
  subst all
  rw [← Except.ok.inj done] at stored ⊢
  simp only [AList.lookup_insert, Option.some.injEq] at stored
  subst stored
  have distinct : addressMap.keys.Nodup := addressMap.keys_nodup
  set counted := addressMap.keys.foldl (fun d addr => d.incAddressCounter addr) recordedApp
    with countedIs
  have kept : (counted.confirmedBlocks, counted.addressNonce, counted.addressCost,
      counted.undeliveredNum) = (recordedApp.confirmedBlocks, recordedApp.addressNonce,
      recordedApp.addressCost, recordedApp.undeliveredNum) := by
    rw [countedIs]
    apply foldl_preserves (fun d : DexconApp => (d.confirmedBlocks, d.addressNonce, d.addressCost,
      d.undeliveredNum))
    intro state addr
    rfl
  simp only [Prod.mk.injEq] at kept
  obtain ⟨keptBlocks, keptNonce, keptCost, keptUndelivered⟩ := kept
  -- a sender of the block is a key of its map exactly when it sent one of its transactions
  have key_iff : ∀ a, a ∈ addressMap.keys ↔ txsFrom ext a doneTxs ≠ [] := by
    intro a
    rw [← AList.mem_keys, ← AList.lookup_isSome, confirming.addresses a, blockCost]
    split <;> simp_all
  constructor
  · rw [AList.entries_insert_of_notMem (by rwa [keptBlocks, confirming.confirmedBlocks])]
    rw [keptBlocks, confirming.confirmedBlocks, List.map_append]
    exact (List.perm_append_singleton _ _).symm.trans (bookkept.entries.append_right _)
  · have recorded : recordedApp.undeliveredNum = d.undeliveredNum := confirming.undelivered
    show counted.undeliveredNum + 1 = _
    rw [keptUndelivered, recorded, bookkept.undelivered, List.length_append, List.length_singleton]
  · intro member inQueue a
    rcases List.mem_append.mp inQueue with earlier | latest
    · exact bookkept.addresses member earlier a
    · simp only [List.mem_singleton] at latest
      subst latest
      exact confirming.addresses a
  · funext a
    rw [counters_incremented distinct, confirming.counter, bookkept.counter, expectedCounter_getD]
    unfold expectedCounter
    by_cases none : txsFrom ext a doneTxs = []
    · have notKey : a ∉ addressMap.keys := fun key => (key_iff a).mp key none
      simp [notKey, sentIn_append, blocksFrom_append, none]
    · have key : a ∈ addressMap.keys := (key_iff a).mpr none
      simp [key, sentIn_append, blocksFrom_append, none]
  · funext a
    rw [keptCost, confirming.cost a]
    simp only [expectedCost, sentIn_append, costFrom_append]
    push_cast
    rfl
  · intro a
    rw [keptNonce, confirming.nonce a, noncesFrom_append]
  · intro a
    rw [noncesFrom_append]
    exact confirming.increasing a

/-! ### One delivery -/

/-- A sender's three entries: counter, cost and nonce. -/
def senderEntries (d : DexconApp) (a : Address) : Option Nat × Option Int × Option Nat :=
  (d.addressCounter a, d.addressCost a, d.addressNonce a)

/-- What `releaseAddress` makes of a sender's entries, given its cost in the block. -/
def released (entries : Option Nat × Option Int × Option Nat) (cost : Nat) :
    Option Nat × Option Int × Option Nat :=
  let counter := decrement (entries.1.getD 0)
  if counter = 0 then (none, none, none) else (some counter, some (entries.2.1.getD 0 - cost), entries.2.2)

/-- The app with a sender's three entries replaced. -/
def withEntries (d : DexconApp) (addr : Address) (entries : Option Nat × Option Int × Option Nat) :
    DexconApp :=
  { d with
    addressCounter := update d.addressCounter addr entries.1
    addressCost := update d.addressCost addr entries.2.1
    addressNonce := update d.addressNonce addr entries.2.2 }

/-- A release succeeds exactly on a sender with a cost, and replaces its entries by `released`. -/
theorem releaseAddress_eq_ok {d d' : DexconApp} {addr : Address} {cost : Nat} :
    d.releaseAddress addr cost = .ok d' ↔
      d.addressCost addr ≠ none ∧ d' = withEntries d addr (released (senderEntries d addr) cost) := by
  unfold DexconApp.releaseAddress
  cases found : d.addressCost addr with
  | none => simp
  | some total =>
      -- the sender is deleted when its counter reaches zero, and updated otherwise
      by_cases zero : decrement ((d.addressCounter addr).getD 0) = 0 <;>
        simp [zero, released, senderEntries, withEntries, found, eq_comm]

theorem releaseAddress_keeps {d d' : DexconApp} {addr : Address} {cost : Nat}
    (releasedOk : d.releaseAddress addr cost = .ok d') :
    (d'.confirmedBlocks, d'.undeliveredNum) = (d.confirmedBlocks, d.undeliveredNum) := by
  obtain ⟨-, rfl⟩ := releaseAddress_eq_ok.mp releasedOk
  rfl

theorem senderEntries_releaseAddress {d d' : DexconApp} {entry : Σ _ : Address, Nat}
    (releasedOk : d.releaseAddress entry.1 entry.2 = .ok d') :
    senderEntries d' entry.1 = released (senderEntries d entry.1) entry.2 := by
  obtain ⟨-, rfl⟩ := releaseAddress_eq_ok.mp releasedOk
  simp [senderEntries, withEntries]

theorem senderEntries_releaseAddress_of_ne {d d' : DexconApp} {entry : Σ _ : Address, Nat}
    {a : Address} (releasedOk : d.releaseAddress entry.1 entry.2 = .ok d') (other : a ≠ entry.1) :
    senderEntries d' a = senderEntries d a := by
  obtain ⟨-, rfl⟩ := releaseAddress_eq_ok.mp releasedOk
  simp [senderEntries, withEntries, update_of_ne other]

theorem releaseAddress_ok {d : DexconApp} {addr : Address} {cost : Nat}
    (present : d.addressCost addr ≠ none) : ∃ d', d.releaseAddress addr cost = .ok d' :=
  ⟨_, releaseAddress_eq_ok.mpr ⟨present, rfl⟩⟩

theorem Bookkept.stored {info : BlockInfo} {queue : List BlockInfo} {d : DexconApp}
    (bookkept : Bookkept ext (info :: queue) d) :
    d.confirmedBlocks.lookup info.block.hash = some info := by
  apply AList.mem_lookup_iff.mpr
  exact bookkept.entries.mem_iff.mpr (by simp [entryOf])

/-- The keys of a stored block's `addresses` are the senders of its transactions. -/
theorem Bookkept.sends_of_mem {queue : List BlockInfo} {d : DexconApp}
    (bookkept : Bookkept ext queue d) {info : BlockInfo} (queued : info ∈ queue)
    {entry : Σ _ : Address, Nat} (member : entry ∈ info.addresses.entries) :
    txsFrom ext entry.1 info.txs ≠ [] := by
  intro silent
  have found := AList.mem_lookup_iff.mpr member
  rw [bookkept.addresses info queued, blockCost, if_pos silent] at found
  cases found

/-- Delivering the oldest undelivered block reaches neither nil dereference. -/
theorem Bookkept.delivery_ok {info : BlockInfo} {queue : List BlockInfo} {d : DexconApp}
    (bookkept : Bookkept ext (info :: queue) d) :
    ∃ d', d.blockDelivered info.block.hash = .ok d' := by
  have ready : ∀ entry ∈ info.addresses.entries, (senderEntries d entry.1).2.1 ≠ none := by
    intro entry member
    have sent : SentIn ext entry.1 (info :: queue) :=
      sentIn_cons.mpr (Or.inl (bookkept.sends_of_mem List.mem_cons_self member))
    simp [senderEntries, bookkept.cost, expectedCost, sent]
  obtain ⟨releasedApp, releasedOk⟩ := foldlM_pointwise_ok senderEntries Sigma.fst
    (fun _ entries => entries.2.1 ≠ none) (fun _ _ present => releaseAddress_ok present)
    (fun _ _ _ _ stepped other => senderEntries_releaseAddress_of_ne stepped other)
    info.addresses.keys_nodup ready
  unfold DexconApp.blockDelivered DexconApp.removeConfirmedBlock
  simp only [bookkept.stored, releasedOk, except_bind_ok]
  exact ⟨_, rfl⟩

/-- Delivering the oldest undelivered block drops it from the bookkeeping. -/
theorem Bookkept.deliver {info : BlockInfo} {queue : List BlockInfo} {d d' : DexconApp}
    (bookkept : Bookkept ext (info :: queue) d)
    (delivered : d.blockDelivered info.block.hash = .ok d') : Bookkept ext queue d' := by
  have stored := bookkept.stored
  unfold DexconApp.blockDelivered at delivered
  simp only [stored] at delivered
  obtain ⟨removed, removedOk, done⟩ := except_bind_eq_ok.mp delivered
  unfold DexconApp.removeConfirmedBlock at removedOk
  simp only [stored] at removedOk
  obtain ⟨releasedApp, releasedOk, erased⟩ := except_bind_eq_ok.mp removedOk
  have kept : (releasedApp.confirmedBlocks, releasedApp.undeliveredNum) =
      (d.confirmedBlocks, d.undeliveredNum) :=
    foldlM_preserves (fun d : DexconApp => (d.confirmedBlocks, d.undeliveredNum))
      (fun _ _ _ stepped => releaseAddress_keeps stepped) _ releasedOk
  simp only [Prod.mk.injEq] at kept
  obtain ⟨keptBlocks, keptUndelivered⟩ := kept
  have distinct : (info.addresses.entries.map Sigma.fst).Nodup := info.addresses.keys_nodup
  have here : info ∈ info :: queue := List.mem_cons_self
  -- each sender of the block is released once, by its cost in the block; the others stay
  have perSender : ∀ a, senderEntries releasedApp a =
      (expectedCounter ext queue a, expectedCost ext queue a, (noncesFrom ext a queue).getLast?) := by
    intro a
    have before : senderEntries d a = (expectedCounter ext (info :: queue) a,
        expectedCost ext (info :: queue) a, (noncesFrom ext a (info :: queue)).getLast?) := by
      simp [senderEntries, bookkept.counter, bookkept.cost, bookkept.nonce]
    by_cases silent : txsFrom ext a info.txs = []
    · have absent : ∀ entry ∈ info.addresses.entries, entry.1 ≠ a := by
        intro entry member same
        apply bookkept.sends_of_mem here member
        rw [same]
        exact silent
      rw [foldlM_pointwise_of_not_mem senderEntries Sigma.fst
        (fun _ _ _ _ stepped other => senderEntries_releaseAddress_of_ne stepped other) absent
        releasedOk, before]
      simp [expectedCounter, expectedCost, sentIn_cons, blocksFrom_cons, costFrom_cons,
        noncesFrom_cons, silent, costOf]
    · have member : (⟨a, costOf (txsFrom ext a info.txs)⟩ : Σ _ : Address, Nat) ∈
          info.addresses.entries := by
        apply AList.mem_lookup_iff.mp
        rw [bookkept.addresses info here, blockCost, if_neg silent]
        rfl
      rw [foldlM_pointwise_of_mem senderEntries Sigma.fst
        (fun entries (entry : Σ _ : Address, Nat) => released entries entry.2)
        (fun _ _ _ stepped => senderEntries_releaseAddress stepped)
        (fun _ _ _ _ stepped other => senderEntries_releaseAddress_of_ne stepped other)
        distinct member releasedOk, before]
      have sent : SentIn ext a (info :: queue) := sentIn_cons.mpr (Or.inl silent)
      simp only [released, expectedCounter, expectedCost, if_pos sent, Option.getD_some,
        blocksFrom_cons, if_neg silent, costFrom_cons]
      -- the sender's counter is positive, so the decrement does not wrap
      have counter : decrement (1 + blocksFrom ext a queue) = blocksFrom ext a queue := by
        rw [decrement_of_pos (by omega)]
        omega
      rw [counter]
      by_cases later : SentIn ext a queue
      · have counted := blocksFrom_pos_iff.mpr later
        have pending : noncesFrom ext a queue ≠ [] := fun none =>
          (noncesFrom_eq_nil_iff.mp none) later
        obtain ⟨last, found⟩ := Option.isSome_iff_exists.mp (List.getLast?_isSome.mpr pending)
        simp only [Nat.pos_iff_ne_zero.mp counted, if_false, later,
          if_true, noncesFrom_cons, List.getLast?_append, found, Option.some_or]
        push_cast
        simp
      · have zero : blocksFrom ext a queue = 0 := by
          have := blocksFrom_pos_iff.not.mpr later
          omega
        have none : noncesFrom ext a queue = [] := noncesFrom_eq_nil_iff.mpr later
        simp [zero, later, none]
  rw [← Except.ok.inj done, ← Except.ok.inj erased]
  constructor
  · show (releasedApp.confirmedBlocks.erase info.block.hash).entries.Perm _
    rw [keptBlocks]
    have erased := bookkept.entries.kerase (a := info.block.hash) d.confirmedBlocks.nodupKeys
    rw [List.map_cons, List.kerase_cons_eq (show info.block.hash = (entryOf info).1 from rfl)]
      at erased
    exact erased
  · show decrement releasedApp.undeliveredNum = _
    rw [keptUndelivered, bookkept.undelivered, List.length_cons,
      decrement_of_pos (Nat.succ_pos _), Nat.add_one_sub_one]
  · intro later member a
    exact bookkept.addresses later (List.mem_cons_of_mem _ member) a
  · funext a
    exact congrArg Prod.fst (perSender a)
  · funext a
    exact congrArg (fun entries => entries.2.1) (perSender a)
  · intro a
    exact congrArg (fun entries => entries.2.2) (perSender a)
  · intro a
    have increasing := bookkept.increasing a
    rw [noncesFrom_cons] at increasing
    exact increasing.sublist (List.sublist_append_right _ _)

/-! ### Runs -/

variable (ext)

/-- The runs of the app from `NewDexconApp`; `queue` lists the undelivered blocks in order. -/
inductive AppRun (admissible : DexconApp → Block → Prop) : List BlockInfo → DexconApp → Prop
  | start (height : Nat) : AppRun admissible [] (newDexconApp height)
  | confirmed {queue : List BlockInfo} {d d' : DexconApp} {block : Block} {info : BlockInfo} :
      AppRun admissible queue d → admissible d block → d.blockConfirmed ext block = .ok d' →
      d'.confirmedBlocks.lookup block.hash = some info → AppRun admissible (queue ++ [info]) d'
  | delivered {info : BlockInfo} {queue : List BlockInfo} {d d' : DexconApp} :
      AppRun admissible (info :: queue) d → d.blockDelivered info.block.hash = .ok d' →
      AppRun admissible queue d'

/-- Consensus confirms a block only while no block of its hash awaits delivery. -/
def FreshBlock (d : DexconApp) (block : Block) : Prop := block.hash ∉ d.confirmedBlocks

variable {ext}

theorem bookkept_newDexconApp (height : Nat) : Bookkept ext [] (newDexconApp height) where
  entries := List.Perm.refl _
  undelivered := rfl
  addresses := fun _ absent => nomatch absent
  counter := by funext a; simp [newDexconApp, expectedCounter, SentIn]
  cost := by funext a; simp [newDexconApp, expectedCost, SentIn]
  nonce := fun _ => rfl
  increasing := fun _ => List.Pairwise.nil

theorem AppRun.bookkept {queue : List BlockInfo} {d : DexconApp}
    (run : AppRun ext FreshBlock queue d) : Bookkept ext queue d := by
  induction run with
  | start height => exact bookkept_newDexconApp height
  | confirmed _ fresh confirmed stored bookkept => exact bookkept.confirm fresh confirmed stored
  | delivered _ delivered bookkept => exact bookkept.deliver delivered

/-! ### From the queue to the stored blocks -/

theorem max?_eq_of_perm {nonces others : List Nat} (permuted : nonces.Perm others) :
    nonces.max? = others.max? := by
  cases found : others.max? with
  | none =>
      rw [List.max?_eq_none_iff] at found ⊢
      subst found
      exact permuted.eq_nil
  | some largest =>
      rw [List.max?_eq_some_iff] at found ⊢
      exact ⟨permuted.mem_iff.mpr found.1, fun nonce member => found.2 nonce (permuted.mem_iff.mp member)⟩

/-- The latest of increasing nonces is the largest. -/
theorem getLast?_eq_max? {nonces : List Nat} (increasing : nonces.Pairwise (· < ·)) :
    nonces.getLast? = nonces.max? := by
  cases found : nonces.getLast? with
  | none => simp [List.getLast?_eq_none_iff.mp found]
  | some last =>
      symm
      rw [List.max?_eq_some_iff]
      exact ⟨List.mem_of_getLast? found, le_of_getLast? increasing found⟩

/-- What the blocks determine does not depend on their order. -/
theorem expected_perm {blocks others : List BlockInfo} (permuted : blocks.Perm others) :
    expectedCounter ext blocks = expectedCounter ext others ∧
      expectedCost ext blocks = expectedCost ext others ∧
      expectedNonce ext blocks = expectedNonce ext others := by
  have sent : ∀ a, SentIn ext a blocks ↔ SentIn ext a others := by
    intro a
    simp only [SentIn]
    exact ⟨fun ⟨info, member, rest⟩ => ⟨info, permuted.mem_iff.mp member, rest⟩,
      fun ⟨info, member, rest⟩ => ⟨info, permuted.mem_iff.mpr member, rest⟩⟩
  refine ⟨funext fun a => ?_, funext fun a => ?_, funext fun a => ?_⟩
  · simp only [expectedCounter, blocksFrom, sent a, (permuted.filter _).length_eq]
  · simp only [expectedCost, costFrom, sent a, (permuted.map _).sum_eq]
  · exact max?_eq_of_perm (permuted.flatMap_right _)

/-- Confirmed-block bookkeeping: the three sender maps are what the undelivered blocks give. -/
theorem confirmed_bookkeeping {queue : List BlockInfo} {d : DexconApp}
    (run : AppRun ext FreshBlock queue d) :
    d.undeliveredNum = d.confirmedBlocks.entries.length ∧
      d.addressCounter = expectedCounter ext (d.confirmedBlocks.entries.map Sigma.snd) ∧
      d.addressCost = expectedCost ext (d.confirmedBlocks.entries.map Sigma.snd) ∧
      d.addressNonce = expectedNonce ext (d.confirmedBlocks.entries.map Sigma.snd) := by
  have bookkept := run.bookkept
  -- the stored blocks are the queue, in another order
  have stored : (d.confirmedBlocks.entries.map Sigma.snd).Perm queue := by
    have := bookkept.entries.map Sigma.snd
    rwa [List.map_map, show Sigma.snd ∘ entryOf = id from rfl, List.map_id] at this
  obtain ⟨counter, cost, nonce⟩ := @expected_perm ext _ _ stored
  refine ⟨?_, ?_, ?_, ?_⟩
  · rw [bookkept.undelivered, bookkept.entries.length_eq, List.length_map]
  · rw [counter, bookkept.counter]
  · rw [cost, bookkept.cost]
  · rw [nonce]
    funext a
    rw [bookkept.nonce a, expectedNonce, getLast?_eq_max? (bookkept.increasing a)]

/-- A sender, and a block of one of its transactions. -/
def payer : Address := 0x1#160

def payment : Transaction := ⟨3, 21, 2, 5⟩

def paymentBlock : Block := ⟨0x7#256, 1, [1]⟩

/-- Externals under which every payload is `payment`, signed by `payer`. -/
def payingExternals : AppExternals := ⟨fun _ => .ok [payment], fun _ => .ok payer⟩

def paymentInfo : BlockInfo := ⟨(∅ : AddressMap).insert payer payment.cost, paymentBlock, [payment]⟩

def paymentConfirmed : DexconApp :=
  match (newDexconApp 0).blockConfirmed payingExternals paymentBlock with
  | .ok d => d
  | .error _ => newDexconApp 0

theorem paymentConfirmed_run : AppRun payingExternals FreshBlock [paymentInfo] paymentConfirmed :=
  have fresh : FreshBlock (newDexconApp 0) paymentBlock := by
    simp [FreshBlock, newDexconApp]
  AppRun.confirmed (AppRun.start 0) fresh
    (show (newDexconApp 0).blockConfirmed payingExternals paymentBlock = .ok paymentConfirmed
      from rfl) rfl

theorem confirmed_bookkeeping_payment :
    AppRun payingExternals FreshBlock [paymentInfo] paymentConfirmed ∧
      (paymentConfirmed.undeliveredNum = paymentConfirmed.confirmedBlocks.entries.length ∧
        paymentConfirmed.addressCounter =
          expectedCounter payingExternals (paymentConfirmed.confirmedBlocks.entries.map Sigma.snd) ∧
        paymentConfirmed.addressCost =
          expectedCost payingExternals (paymentConfirmed.confirmedBlocks.entries.map Sigma.snd) ∧
        paymentConfirmed.addressNonce =
          expectedNonce payingExternals (paymentConfirmed.confirmedBlocks.entries.map Sigma.snd)) :=
  ⟨paymentConfirmed_run, confirmed_bookkeeping paymentConfirmed_run⟩

/-- Delivery progress: `BlockDelivered` of the oldest undelivered block returns without error. -/
theorem oldest_block_deliverable {info : BlockInfo} {queue : List BlockInfo} {d : DexconApp}
    (run : AppRun ext FreshBlock (info :: queue) d) :
    ∃ d', d.blockDelivered info.block.hash = .ok d' :=
  run.bookkept.delivery_ok

theorem oldest_block_deliverable_payment :
    AppRun payingExternals FreshBlock [paymentInfo] paymentConfirmed ∧
      ∃ d', paymentConfirmed.blockDelivered paymentInfo.block.hash = .ok d' :=
  ⟨paymentConfirmed_run, oldest_block_deliverable paymentConfirmed_run⟩

/-- A block with no payload, and externals that decode every payload to no transactions. -/
def emptyBlock : Block := ⟨0x1#256, 1, []⟩

def idleExternals : AppExternals := ⟨fun _ => .ok [], fun _ => .error "invalid sender"⟩

def emptyInfo : BlockInfo := ⟨∅, emptyBlock, []⟩

def confirmedOnce : DexconApp :=
  match (newDexconApp 0).blockConfirmed idleExternals emptyBlock with
  | .ok d => d
  | .error _ => newDexconApp 0

def confirmedTwice : DexconApp :=
  match confirmedOnce.blockConfirmed idleExternals emptyBlock with
  | .ok d => d
  | .error _ => confirmedOnce

/-- Confirming an empty block twice counts it twice in `undeliveredNum` and stores it once. -/
theorem empty_block_confirmed_twice :
    AppRun idleExternals (fun _ _ => True) [emptyInfo, emptyInfo] confirmedTwice ∧
      confirmedTwice.undeliveredNum = 2 ∧ confirmedTwice.confirmedBlocks.entries.length = 1 :=
  have once : AppRun idleExternals (fun _ _ => True) [emptyInfo] confirmedOnce :=
    AppRun.confirmed (AppRun.start 0) trivial
      (show (newDexconApp 0).blockConfirmed idleExternals emptyBlock = .ok confirmedOnce from rfl) rfl
  have twice : AppRun idleExternals (fun _ _ => True) [emptyInfo, emptyInfo] confirmedTwice :=
    AppRun.confirmed once trivial
      (show confirmedOnce.blockConfirmed idleExternals emptyBlock = .ok confirmedTwice from rfl) rfl
  ⟨twice, rfl, rfl⟩

end Tangerine.Proof.ConfirmedBlocks
