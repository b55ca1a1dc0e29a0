import Tangerine.Trie.Hasher
import Tangerine.Proof.Trie.Canonical

/-! What the hasher computes: `Hash` returns the root hash of the stored form of the root. -/

namespace Tangerine.Proof.TrieHashing

open Tangerine.Common Tangerine.Trie Tangerine.Library Tangerine.Core.Vm
  Tangerine.Proof.TrieShape Tangerine.Proof.TrieCanonical

variable (keccak : Bytes → Bytes)

/-- What a parent holds for a node whose stored form is `r`: `r` if small, else its hash. -/
def reference (force : Bool) (r : RawNode) : RawNode :=
  match r with
  | .hash _ | .nil => r
  | _ => if r.encode.length < 32 ∧ force = false then r else .hash (keccak r.encode)

/-- The stored form of a node in memory: COMPACT keys and children collapsed to references. -/
def collapse : Node → RawNode
  | .short key val _ =>
    .short (hexToCompact key) (match val with
      | .value v => .value v
      | _ => reference keccak false (collapse val))
  | .full children _ =>
    .full fun i => if i.val < 16 then reference keccak false (collapse (children i)) else (children i).raw
  | .hash digest => .hash digest
  | .value v => .value v
  | .nil => .nil

/-- A hash cached in a node is right: the hash of its stored form's encoding. -/
def HashRight (top : Bool) (n : Node) (hash : Bytes) : Prop :=
  reference keccak top (collapse keccak n) = .hash hash

/-- Every hash a node and the nodes below it cache is right. -/
def CachesRight (top : Bool) (n : Node) : Prop := CachesBy (HashRight keccak) top n

/-- The root hash of a node in memory. -/
def rootHash (n : Node) : Bytes :=
  match reference keccak true (collapse keccak n) with
  | .hash digest => digest
  | _ => hashToBytes emptyRoot

section Collapse

variable {keccak}

theorem raw_eraseFlags (n : Node) : (eraseFlags n).raw = n.raw := by
  induction n with
  | full children flags inductionHypothesis =>
    simp only [eraseFlags_full, Node.raw, inductionHypothesis]
  | short key val flags inductionHypothesis =>
    simp only [eraseFlags_short, Node.raw, inductionHypothesis]
  | _ => rfl

theorem collapse_short_of_not_value {key : List Nibble} {val : Node} (notValue : ∀ v, val ≠ .value v)
    (flags : NodeFlag) :
    collapse keccak (.short key val flags) =
      .short (hexToCompact key) (reference keccak false (collapse keccak val)) := by
  cases val with
  | value v => exact absurd rfl (notValue v)
  | _ => rfl

/-- The stored form has no flags. -/
@[simp] theorem collapse_eraseFlags (n : Node) : collapse keccak (eraseFlags n) = collapse keccak n := by
  induction n with
  | full children flags inductionHypothesis =>
    simp only [eraseFlags_full, collapse, inductionHypothesis, raw_eraseFlags]
  | short key val flags inductionHypothesis =>
    by_cases isValue : ∃ v, val = .value v
    · obtain ⟨v, rfl⟩ := isValue
      rfl
    · have notValue : ∀ v, val ≠ .value v := fun v same => isValue ⟨v, same⟩
      have erasedNotValue : ∀ v, eraseFlags val ≠ .value v := by
        intro v same
        cases val <;> simp_all [eraseFlags]
      rw [eraseFlags_short, collapse_short_of_not_value erasedNotValue, inductionHypothesis,
        collapse_short_of_not_value notValue]
  | _ => rfl

theorem collapse_congr {n n' : Node} (erased : eraseFlags n = eraseFlags n') :
    collapse keccak n = collapse keccak n' := by
  rw [← collapse_eraseFlags n, erased, collapse_eraseFlags]

theorem rootHash_congr {n n' : Node} (erased : eraseFlags n = eraseFlags n') :
    rootHash keccak n = rootHash keccak n' := by
  simp only [rootHash, collapse_congr erased]

/-- A node that is there is forced to its hash. -/
theorem reference_true_of_live {n : Node} (live : n.isNil = false) :
    reference keccak true (collapse keccak n) = .hash (rootHash keccak n) := by
  cases n with
  | nil => simp [Node.isNil] at live
  | hash digest => rfl
  | _ => simp [rootHash, reference, collapse]

end Collapse

section Store

variable {keccak}

/-- With no hash cached and no database, `store` returns the reference and writes nothing. -/
theorem store_none (r : RawNode) (force : Bool) :
    Hasher.store keccak r none false force = (reference keccak force r, []) := by
  cases r <;> simp [Hasher.store, reference, Hasher.makeHashNode] <;> split <;> simp

theorem asHash_eq_some {r : RawNode} {hash : Bytes} (cached : Hasher.asHash r = some hash) :
    r = .hash hash := by
  cases r <;> simp_all [Hasher.asHash]

/-- A node that caches no hash takes a right one from `cacheHash`, when given its reference. -/
theorem cachesRight_cacheHash {c n : Node} {force : Bool} (erased : eraseFlags c = eraseFlags n)
    (caches : CachesRight keccak force c) :
    CachesRight keccak force (Hasher.cacheHash c (reference keccak force (collapse keccak n)) false) := by
  have right : ∀ hash, Hasher.asHash (reference keccak force (collapse keccak n)) = some hash →
      HashRight keccak force c hash := by
    intro hash cached
    rw [HashRight, collapse_congr erased]
    exact asHash_eq_some cached
  cases c with
  | short key val flags => exact ⟨fun hash cached => right hash cached, caches.2⟩
  | full children flags => exact ⟨fun hash cached => right hash cached, caches.2⟩
  | _ => exact caches

@[simp] theorem eraseFlags_cacheHash (c : Node) (hashed : RawNode) (db : Bool) :
    eraseFlags (Hasher.cacheHash c hashed db) = eraseFlags c := by
  cases c <;> rfl

end Store

/-- What `hash` returns when only hashing a node whose cached hashes are right. -/
structure HashedRight (force : Bool) (n : Node) (r : Hashed) : Prop where
  hashed_eq : r.hashed = reference keccak force (collapse keccak n)
  erase_eq : eraseFlags r.cached = eraseFlags n
  caches : CachesRight keccak force r.cached
  stored_eq : r.stored = []

section Hash

variable {keccak} (h : Hasher)

theorem cachedHashed_of_some {n : Node} {hash : Bytes} (cached : n.cache.1 = some hash) :
    h.cachedHashed n false = some ⟨.hash hash, n, []⟩ := by
  cases n <;> simp_all [Hasher.cachedHashed, Node.cache]

theorem cachedHashed_of_none {n : Node} (fresh : n.cache.1 = none) (db : Bool) :
    h.cachedHashed n db = none := by
  cases n <;> simp_all [Hasher.cachedHashed, Node.cache]

/-- A node with a right cached hash is taken by it. -/
theorem hashedRight_of_cached {n : Node} {force : Bool} {hash : Bytes}
    (cached : n.cache.1 = some hash) (right : HashRight keccak force n hash)
    (caches : CachesRight keccak force n) : HashedRight keccak force n (h.hash keccak n false force) := by
  rw [Hasher.hash.eq_def, cachedHashed_of_some h cached]
  exact ⟨right.symm, rfl, caches, rfl⟩

/-- A node that caches no hash is walked. -/
theorem hashedRight_of_walk {n : Node} {force : Bool} (fresh : n.cache.1 = none)
    (walked : RawNode × Node × List (Bytes × Bytes))
    (facts : walked.1 = collapse keccak n ∧ eraseFlags walked.2.1 = eraseFlags n ∧
      CachesRight keccak force walked.2.1 ∧ walked.2.2 = [])
    (walk : h.hash keccak n false force =
      ⟨(Hasher.store keccak walked.1 n.cache.1 false force).1,
        Hasher.cacheHash walked.2.1 (Hasher.store keccak walked.1 n.cache.1 false force).1 false,
        walked.2.2 ++ (Hasher.store keccak walked.1 n.cache.1 false force).2⟩) :
    HashedRight keccak force n (h.hash keccak n false force) := by
  obtain ⟨collapsed, erased, caches, stored⟩ := facts
  rw [walk, fresh, collapsed, store_none]
  exact ⟨rfl, by simp [erased], cachesRight_cacheHash erased caches, by simp [stored]⟩

/-- The walk of `hash` over a short node collapses it, when it is given the child's reference. -/
theorem hashChildrenShort_fst {key : List Nibble} {val : Node} {flags : NodeFlag} {child : Hashed}
    (right : child.hashed = reference keccak false (collapse keccak val)) :
    (Hasher.hashChildrenShort key val flags child).1 = collapse keccak (.short key val flags) := by
  cases val with
  | value v => rfl
  | _ => simp only [Hasher.hashChildrenShort, collapse, right]

/-- The walk of `hash` over a full node collapses it, when it is given each child's reference. -/
theorem hashChildrenFull_fst {children : Fin 17 → Node} {flags : NodeFlag} {child : Fin 17 → Hashed}
    (right : ∀ i, (child i).hashed = reference keccak false (collapse keccak (children i))) :
    (Hasher.hashChildrenFull children flags child).1 = collapse keccak (.full children flags) := by
  simp only [Hasher.hashChildrenFull, collapse]
  congr 1
  funext i
  -- a child the loop skips is missing or in the value slot, and collapses as it is
  by_cases hashes : Hasher.hashesChild children i = true
  · simp only [Hasher.hashesChild, Bool.and_eq_true, decide_eq_true_eq, Bool.not_eq_true'] at hashes
    simp [Hasher.hashesChild, hashes, right i]
  · simp only [hashes]
    by_cases below : i.val < 16
    · have missing : children i = .nil := by
        cases live : children i <;> simp_all [Hasher.hashesChild, Node.isNil]
      simp [below, missing, Node.raw, reference, collapse]
    · simp [below]

/-- Only hashing a node whose cached hashes are right computes its reference and writes nothing. -/
theorem hash_right {n : Node} {force : Bool} (caches : CachesRight keccak force n) :
    HashedRight keccak force n (h.hash keccak n false force) := by
  induction n generalizing force with
  | short key val flags inductionHypothesis =>
    cases cached : flags.hash with
    | some hash => exact hashedRight_of_cached h cached (caches.1 hash cached) caches
    | none =>
      refine hashedRight_of_walk h (n := .short key val flags) cached
        (Hasher.hashChildrenShort key val flags (h.hash keccak val false false)) ?_
        (by simp only [Hasher.hash, cachedHashed_of_none h (n := .short key val flags) cached])
      by_cases isValue : ∃ v, val = .value v
      · obtain ⟨v, rfl⟩ := isValue
        exact ⟨rfl, rfl, cachesBy_short_fresh cached trivial, rfl⟩
      · -- the child is hashed unforced, and its reference goes in the node's place
        have notValue : ∀ v, val ≠ .value v := fun v same => isValue ⟨v, same⟩
        have child := inductionHypothesis caches.2
        have walked : Hasher.hashChildrenShort key val flags (h.hash keccak val false false) =
            (.short (hexToCompact key) (h.hash keccak val false false).hashed,
              .short key (h.hash keccak val false false).cached flags,
              (h.hash keccak val false false).stored) := by
          cases val with
          | value v => exact absurd rfl (notValue v)
          | _ => rfl
        refine ⟨hashChildrenShort_fst child.hashed_eq, ?_, ?_, ?_⟩
        all_goals rw [walked]
        · simp [child.erase_eq]
        · exact cachesBy_short_fresh cached child.caches
        · exact child.stored_eq
  | full children flags inductionHypothesis =>
    cases cached : flags.hash with
    | some hash => exact hashedRight_of_cached h cached (caches.1 hash cached) caches
    | none =>
      refine hashedRight_of_walk h (n := .full children flags) cached
        (Hasher.hashChildrenFull children flags fun i => h.hash keccak (children i) false false)
        ?_ (by simp only [Hasher.hash, cachedHashed_of_none h (n := .full children flags) cached])
      have child := fun i => inductionHypothesis i (caches.2 i)
      refine ⟨hashChildrenFull_fst fun i => (child i).hashed_eq, ?_, ?_, ?_⟩
      · simp only [Hasher.hashChildrenFull, eraseFlags_full]
        congr 1
        funext i
        split
        · exact (child i).erase_eq
        · rfl
      · refine cachesBy_full_fresh cached fun i => ?_
        split
        · exact (child i).caches
        · exact caches.2 i
      · simp only [Hasher.hashChildrenFull]
        simp [List.flatMap_eq_nil_iff, (child _).stored_eq]
  | hash digest =>
    exact hashedRight_of_walk h (n := .hash digest) rfl (Node.raw (.hash digest), .hash digest, [])
      ⟨rfl, rfl, trivial, rfl⟩ (by simp only [Hasher.hash, cachedHashed_of_none h (n := .hash digest) rfl])
  | value v =>
    exact hashedRight_of_walk h (n := .value v) rfl (Node.raw (.value v), .value v, [])
      ⟨rfl, rfl, trivial, rfl⟩ (by simp only [Hasher.hash, cachedHashed_of_none h (n := .value v) rfl])
  | nil =>
    exact hashedRight_of_walk h (n := .nil) rfl (Node.raw .nil, .nil, [])
      ⟨rfl, rfl, trivial, rfl⟩ (by simp only [Hasher.hash, cachedHashed_of_none h (n := .nil) rfl])

end Hash

section Trie

variable {keccak}

theorem hashRoot_of_live {t : Trie} (live : t.root.isNil = false) (db : Bool) :
    t.hashRoot keccak db = (Hasher.mk t.cachegen t.cachelimit).hash keccak t.root db true := by
  unfold Trie.hashRoot
  split
  · rename_i empty
    simp [empty, Node.isNil] at live
  · rfl

/-- `Hash` of a trie whose cached hashes are right returns the root hash of its root. -/
theorem Hash_eq {t : Trie} (caches : CachesRight keccak true t.root) :
    ∃ root, t.Hash keccak = .ok (bytesToHash (rootHash keccak t.root), { t with root := root }) ∧
      eraseFlags root = eraseFlags t.root ∧ CachesRight keccak true root := by
  cases live : t.root.isNil with
  | true =>
    have empty : t.root = .nil := by
      cases root : t.root <;> simp_all [Node.isNil]
    refine ⟨.nil, ?_, by rw [empty], trivial⟩
    simp [Trie.Hash, Trie.hashRoot, empty, rootHash, reference, collapse]
  | false =>
    have spec := hash_right (Hasher.mk t.cachegen t.cachelimit) caches
    refine ⟨_, ?_, spec.erase_eq, spec.caches⟩
    simp only [Trie.Hash, hashRoot_of_live live, spec.hashed_eq, reference_true_of_live live]

/-- Two canonical keyed nodes that hold the same map have the same root hash. -/
theorem rootHash_eq_of_nodeMap {n n' : Node} (shaped : Shaped n) (shaped' : Shaped n')
    (same : nodeMap n = nodeMap n') : rootHash keccak n = rootHash keccak n' :=
  rootHash_congr (eraseFlags_eq_of_nodeMap shaped shaped' same)

end Trie

end Tangerine.Proof.TrieHashing
