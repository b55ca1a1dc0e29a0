import Mathlib.Data.List.AList
import Mathlib.Data.List.Perm.Basic
import Tangerine.Common.Types
import Tangerine.Library.Loop

/-! The global signature cache of `core/types/transaction_signing.go`. -/

namespace Tangerine.Core.Types

open Tangerine.Common Tangerine.Library

/-- `resultEntry`. -/
structure ResultEntry where
  hash : Hash
  addr : Address
deriving DecidableEq, Repr

/-- `sigCacheSize`. -/
def sigCacheSize : Nat := 100000

/-- `pruneTargetSize`. -/
def pruneTargetSize : Nat := 90000

/-- `globalSigCache`, without its lock: `cacheID` gives the index in `cache` of each hash. -/
structure GlobalSigCache where
  cacheID : AList fun _ : Hash => Nat
  cache : List ResultEntry

/-- `newGlobalSigCache`. -/
def newGlobalSigCache : GlobalSigCache := ⟨∅, []⟩

/-- What `Add` and `Sender` take from the transactions and the signer. -/
structure Signer (Transaction : Type) where
  /-- `Transaction.Hash`. -/
  hash : Transaction → Hash
  /-- `tx.from.Load()`: the sender the transaction cached, where an equal signer derived it. -/
  cachedFrom : Transaction → Option Address
  /-- `Signer.Sender`: the sender recovered from the signature, or its error. -/
  sender : Transaction → Except String Address

/-- The order in which the `num` goroutines of `Add` run. -/
structure Schedule (num : Nat) where
  order : List Nat
  perm : order.Perm (List.range num)

/-- The goroutines in the order they are started. -/
def Schedule.inOrder (num : Nat) : Schedule num := ⟨List.range num, List.Perm.refl _⟩

/-- The number of goroutines: `runtime.NumCPU() - 2`, at least one. -/
def workerCount (numCPU : Nat) : Nat := if numCPU < 3 then 1 else numCPU - 2

namespace GlobalSigCache

/-- `len(c.cacheID)`. -/
def size (c : GlobalSigCache) : Nat := c.cacheID.keys.length

/-- `Get`: the sender cached for a hash. A cached index past the end of `cache` panics. -/
def get (c : GlobalSigCache) (hash : Hash) : Except Halt (Address × Bool) :=
  match c.cacheID.lookup hash with
  | some id =>
    match c.cache[id]? with
    | some entry => .ok (entry.addr, true)
    | none => .error (.panic "index out of range")
  | none => .ok (0, false)

/-- The condition of the pruning loop of a goroutine that stores `results`. -/
def overfull (results : List ResultEntry) (c : GlobalSigCache) : Bool :=
  decide (results.length + c.size > sigCacheSize)

/-- One iteration of the pruning loop, which panics on a cache shorter than `pruneTargetSize`. -/
def pruneStep (results : List ResultEntry) (c : GlobalSigCache) :
    Except Halt (Iteration GlobalSigCache) :=
  if results.length > sigCacheSize then .ok (.exit ⟨∅, []⟩)
  else if c.cache.length < pruneTargetSize then .error (.panic "slice bounds out of range")
  else
    let prune := c.cache.drop pruneTargetSize
    .ok (.next ⟨prune.foldl (fun cacheID r => cacheID.erase r.hash) c.cacheID,
      c.cache.take pruneTargetSize⟩)

/-- One entry stored: its hash indexed at the end of the cache, where it is appended. -/
def appendResult (c : GlobalSigCache) (r : ResultEntry) : GlobalSigCache :=
  ⟨c.cacheID.insert r.hash c.cache.length, c.cache ++ [r]⟩

@[simp] theorem appendResult_cacheID (c : GlobalSigCache) (r : ResultEntry) :
    (c.appendResult r).cacheID = c.cacheID.insert r.hash c.cache.length := rfl

@[simp] theorem appendResult_cache (c : GlobalSigCache) (r : ResultEntry) :
    (c.appendResult r).cache = c.cache ++ [r] := rfl

/-- The critical section of a goroutine: the pruning loop, then its entries appended. -/
def store (fuel : Nat) (results : List ResultEntry) (c : GlobalSigCache) :
    Except Halt GlobalSigCache :=
  (whileLoop (overfull results) (pruneStep results) fuel c).map fun c => results.foldl appendResult c

end GlobalSigCache

section Add

variable {Transaction : Type} (signer : Signer Transaction)

/-- `Sender`, reading the global cache `c`; a panic of `Get` is the outer error. -/
def sender (c : GlobalSigCache) (tx : Transaction) : Except Halt (Except String Address) :=
  match signer.cachedFrom tx with
  | some addr => .ok (.ok addr)
  | none =>
    c.get (signer.hash tx) >>= fun (addr, ok) =>
    if ok then .ok (.ok addr) else .ok (signer.sender tx)

/-- How the sender loop of a goroutine ends. -/
inductive Collected (Transaction : Type) where
  /-- Every sender of the batch recovered, in order. -/
  | results (entries : List ResultEntry)
  /-- `len(txError) > 0`: another goroutine's error is pending, and this one returns. -/
  | pending
  /-- The sender of `tx` failed: the goroutine sends its error and returns. -/
  | failed (err : String) (tx : Transaction)

/-- The sender loop of a goroutine over its batch; `pending` is `len(txError) > 0`. -/
def collect (c : GlobalSigCache) (pending : Bool) :
    List Transaction → Except Halt (Collected Transaction)
  | [] => .ok (.results [])
  | tx :: txs =>
    if pending then .ok .pending else
    sender signer c tx >>= fun
      | .error err => .ok (.failed err tx)
      | .ok addr => (collect c pending txs).map fun
        | .results entries => .results (⟨signer.hash tx, addr⟩ :: entries)
        | other => other

/-- What the goroutines of one `Add` share. -/
structure AddState (Transaction : Type) where
  cache : GlobalSigCache
  txError : Option String
  errorTx : Option Transaction

/-- One goroutine of `Add`, on its batch. -/
def goroutine (fuel : Nat) (batch : List Transaction) (st : AddState Transaction) :
    Except Halt (AddState Transaction) :=
  collect signer st.cache st.txError.isSome batch >>= fun
    | .pending => .ok st
    -- the `select`: the error is sent when the channel is empty, else dropped
    | .failed err tx =>
      .ok (if st.txError.isNone then { st with txError := some err, errorTx := some tx } else st)
    | .results results =>
      (GlobalSigCache.store fuel results st.cache).map fun cache => { st with cache }

/-- `txs[i*batchSize : (i+1)*batchSize]`. -/
def batch (txs : List Transaction) (batchSize i : Nat) : List Transaction :=
  (txs.take ((i + 1) * batchSize)).drop (i * batchSize)

/-- `globalSigCache.Add`, its goroutines run one after another in the order of `schedule`. -/
def add (numCPU : Nat) (schedule : Schedule (workerCount numCPU)) (fuel : Nat)
    (c : GlobalSigCache) (txs : List Transaction) :
    Except Halt (Option Transaction × Option String × GlobalSigCache) :=
  let num := workerCount numCPU
  let batchSize := txs.length / num
  (schedule.order.foldlM (fun st i => goroutine signer fuel (batch txs batchSize i) st)
    ⟨c, none, none⟩).map fun st => (st.errorTx, st.txError, st.cache)

end Add

end Tangerine.Core.Types
