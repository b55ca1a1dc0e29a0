import Tangerine.Trie.MerkleProof
import Tangerine.Proof.Trie.Decode

/-! Merkle proofs of the trie are complete (`trie/proof.go`). -/

namespace Tangerine.Proof.TrieProofs

open Tangerine.Common Tangerine.Trie Tangerine.Library Tangerine.Core.Vm Tangerine.Proof.TrieKeys
  Tangerine.Proof.TrieShape Tangerine.Proof.TrieHashing Tangerine.Proof.TrieRuns
  Tangerine.Proof.TrieDecode

/-- `m` stands in `n` at the end of the path `p`. -/
inductive Below : Node → List Nibble → Node → Prop
  | refl (n : Node) : Below n [] n
  | short {key : List Nibble} {val : Node} (flags : NodeFlag) {p : List Nibble} {m : Node} :
      Below val p m → Below (.short key val flags) (key ++ p) m
  | full {children : Fin 17 → Node} (flags : NodeFlag) (i : Nibble) {p : List Nibble} {m : Node} :
      Below (children i) p m → Below (.full children flags) (i :: p) m

/-- Every node in `n` has a stored encoding of fewer than `2 ^ 64` bytes. -/
def Fits (keccak : Bytes → Bytes) (n : Node) : Prop :=
  ∀ p m, Below n p m → (collapse keccak m).encode.length < 2 ^ 64

section Below

variable {n m m' : Node} {p q : List Nibble}

/-- A node holds at the end of its path what the node it stands in holds there. -/
theorem Below.nodeMap (below : Below n p m) (x : List Nibble) :
    nodeMap n (p ++ x) = nodeMap m x := by
  induction below with
  | refl => rfl
  | short flags below inductionHypothesis =>
    rw [List.append_assoc, nodeMap_short, KeyMap.under_append_apply, inductionHypothesis]
  | full flags i below inductionHypothesis =>
    rw [List.cons_append, nodeMap_full, KeyMap.branch_cons, inductionHypothesis]

theorem Below.trans (below : Below n p m) (below' : Below m q m') : Below n (p ++ q) m' := by
  induction below with
  | refl => exact below'
  | short flags below inductionHypothesis =>
    rw [List.append_assoc]
    exact .short flags (inductionHypothesis below')
  | full flags i below inductionHypothesis => exact .full flags i (inductionHypothesis below')

/-- Nothing stands below a leaf but the leaf. -/
theorem Below.eq_of_leaf (leaf : Leaf n) (below : Below n p m) : m = n := by
  cases below with
  | refl => rfl
  | short => exact leaf.elim
  | full => exact leaf.elim

theorem Below.canonical (canonical : Canonical n) (below : Below n p m) : Canonical m := by
  induction below with
  | refl => exact canonical
  | short flags below inductionHypothesis => exact inductionHypothesis canonical.2.2
  | full flags i below inductionHypothesis => exact inductionHypothesis (canonical.2 i)

/-- In a keyed node, a path of digits leads to a keyed node, and any other path to a leaf. -/
theorem Below.keyed (keyed : Keyed n) (below : Below n p m) : (Keyed m ∧ Digits p) ∨ Leaf m := by
  induction below with
  | refl => exact .inl ⟨keyed, digits_nil⟩
  | short flags below inductionHypothesis =>
    rcases keyed with ⟨digits, keyedVal⟩ | ⟨-, v, rfl⟩
    · rcases inductionHypothesis keyedVal with ⟨keyedM, digitsP⟩ | leaf
      · exact .inl ⟨keyedM, digits_append.mpr ⟨digits, digitsP⟩⟩
      · exact .inr leaf
    · have leaf : Leaf (.value v) := trivial
      rw [below.eq_of_leaf leaf]
      exact .inr leaf
  | @full children flags i p m below inductionHypothesis =>
    by_cases slot : i = terminator
    · subst slot
      rw [below.eq_of_leaf keyed.2]
      exact .inr keyed.2
    · rcases inductionHypothesis (keyed.1 i slot) with ⟨keyedM, digitsP⟩ | leaf
      · exact .inl ⟨keyedM, digits_cons.mpr ⟨slot, digitsP⟩⟩
      · exact .inr leaf

/-- A keyed node that is there stands at the end of a path of digits. -/
theorem Below.digits (keyed : Keyed n) (below : Below n p m) (keyedM : Keyed m)
    (live : m.isNil = false) : Digits p := by
  rcases below.keyed keyed with ⟨-, digits⟩ | leaf
  · exact digits
  · cases m with
    | nil => simp [Node.isNil] at live
    | value v => exact keyedM.elim
    | _ => exact leaf.elim

theorem Below.cachesBy_false {ok : Bool → Node → Bytes → Prop} (caches : CachesBy ok false n)
    (below : Below n p m) : CachesBy ok false m := by
  induction below with
  | refl => exact caches
  | short flags below inductionHypothesis => exact inductionHypothesis caches.2
  | full flags i below inductionHypothesis => exact inductionHypothesis (caches.2 i)

/-- The nodes strictly below a node cache hashes as children do. -/
theorem Below.cachesBy {ok : Bool → Node → Bytes → Prop} {top : Bool} (caches : CachesBy ok top n)
    (below : Below n p m) : (p = [] ∧ m = n) ∨ CachesBy ok false m := by
  cases below with
  | refl => exact .inl ⟨rfl, rfl⟩
  | short flags below => exact .inr (below.cachesBy_false caches.2)
  | full flags i below => exact .inr (below.cachesBy_false (caches.2 i))

end Below

section Get

variable {keccak : Bytes → Bytes} {gen : UInt16}

/-- What `get` finds in a node read back from its stored form, at a key. -/
inductive Found (keccak : Bytes → Bytes) (n : Node) (key : List Nibble) : List Nibble × Node → Prop
  | value {rest : List Nibble} {v : Bytes} : nodeMap n key = some v → Found keccak n key (rest, .value v)
  | absent {rest : List Nibble} : nodeMap n key = none → Found keccak n key (rest, .nil)
  | hashed {p rest : List Nibble} {m : Node} {d : Bytes} : Below n p m → key = p ++ rest → p ≠ [] →
      Keyed m → m.isNil = false → reference keccak false (collapse keccak m) = .hash d →
      Found keccak n key (rest, .hash d)

/-- What `get` finds below a reference to a child. -/
def Reached (keccak : Bytes → Bytes) (c : Node) (rest : List Nibble) (r : List Nibble × Node) : Prop :=
  Found keccak c rest r ∨ ∃ d, r = (rest, .hash d) ∧ Keyed c ∧ c.isNil = false ∧
    reference keccak false (collapse keccak c) = .hash d

theorem Reached.short {nkey rest : List Nibble} {val : Node} {r : List Nibble × Node}
    (nonempty : nkey ≠ []) (flags : NodeFlag) (reached : Reached keccak val rest r) :
    Found keccak (.short nkey val flags) (nkey ++ rest) r := by
  rcases reached with found | ⟨d, rfl, keyed, live, hashed⟩
  · cases found with
    | value held => exact .value (by simpa using held)
    | absent held => exact .absent (by simpa using held)
    | hashed below split nonempty' keyed live hashed =>
      exact .hashed (.short flags below) (by rw [split, List.append_assoc])
        (by simp [nonempty']) keyed live hashed
  · exact .hashed (.short flags (.refl val)) (by simp) (by simpa using nonempty) keyed live hashed

theorem Reached.full {children : Fin 17 → Node} {i : Nibble} {rest : List Nibble}
    {r : List Nibble × Node} (flags : NodeFlag) (reached : Reached keccak (children i) rest r) :
    Found keccak (.full children flags) (i :: rest) r := by
  rcases reached with found | ⟨d, rfl, keyed, live, hashed⟩
  · cases found with
    | value held => exact .value (by simpa using held)
    | absent held => exact .absent (by simpa using held)
    | hashed below split nonempty' keyed live hashed =>
      exact .hashed (.full flags i below) (by rw [split, List.cons_append]) (by simp) keyed live
        hashed
  · exact .hashed (.full flags i (.refl _)) rfl (by simp) keyed live hashed

/-- Below a reference `get` goes on in a child held inline, and stops at a child held by hash. -/
theorem get_reference {c : Node} (keyed : Keyed c) {rest : List Nibble}
    (inline : ∃ r, Tangerine.Trie.get (expandNode none (collapse keccak c) gen) rest = .ok r ∧ Found keccak c rest r) :
    ∃ r, Tangerine.Trie.get (expandNode none (reference keccak false (collapse keccak c)) gen) rest = .ok r ∧
      Reached keccak c rest r := by
  rcases reference_cases (collapse keccak c) with same | ⟨d, hashed⟩
  · obtain ⟨r, got, found⟩ := inline
    exact ⟨r, by rw [same, got], .inl found⟩
  · -- a child held by hash is there: nothing is held inline
    have live : c.isNil = false := by
      cases c with
      | nil => simp [collapse, reference] at hashed
      | _ => rfl
    exact ⟨_, by rw [hashed]; rfl, .inr ⟨d, rfl, keyed, live, hashed⟩⟩

theorem mismatch_iff (key nkey : List Nibble) :
    (key.length < nkey.length ∨ nkey ≠ key.take nkey.length) ↔ ¬ nkey <+: key := by
  simpa using short_mismatch_iff key 0 nkey

/-- `get` on a keyed, canonical node read back finds what it holds or the next proof node. -/
theorem get_expandNode {n : Node} (keyed : Keyed n) (canonical : Canonical n) {key : List Nibble}
    (terminated : Terminated key) (hash : Option Bytes) :
    ∃ r, Tangerine.Trie.get (expandNode hash (collapse keccak n) gen) key = .ok r ∧ Found keccak n key r := by
  induction n generalizing key hash with
  | nil => exact ⟨_, rfl, .absent rfl⟩
  | hash _ | value _ => exact keyed.elim
  | short nkey val flags inductionHypothesis =>
    -- a key that does not match holds nothing
    by_cases inside : nkey <+: key
    swap
    · refine ⟨([], .nil), ?_, .absent (by simp [KeyMap.under_apply_outside _ inside])⟩
      rcases keyed with ⟨digits, keyedVal⟩ | ⟨⟨ds, digits, rfl⟩, v, rfl⟩
      · have notValue : ∀ v, val ≠ .value v := by
          rintro v rfl
          exact keyedVal
        have sameKey := compactToHex_hexToCompact_of_digits digits false
        simp only [Bool.false_eq_true, if_false] at sameKey
        rw [collapse_short_of_not_value notValue]
        simp only [expandNode, sameKey, Tangerine.Trie.get, if_pos ((mismatch_iff key nkey).mpr inside)]
      · have sameKey := compactToHex_hexToCompact_of_digits digits true
        simp only [if_true] at sameKey
        simp only [collapse, expandNode, sameKey, Tangerine.Trie.get,
          if_pos ((mismatch_iff key (ds ++ [terminator])).mpr inside)]
    obtain ⟨rest, rfl⟩ := inside
    rcases keyed with ⟨digits, keyedVal⟩ | ⟨⟨ds, digits, rfl⟩, v, rfl⟩
    · -- below a key of digits, a full node held by reference
      have notValue : ∀ v, val ≠ .value v := by
        rintro v rfl
        exact keyedVal
      have sameKey := compactToHex_hexToCompact_of_digits digits false
      simp only [Bool.false_eq_true, if_false] at sameKey
      obtain ⟨r, got, reached⟩ := get_reference keyedVal
        (inductionHypothesis keyedVal canonical.2.2 (terminated.drop_digits digits) none)
      refine ⟨r, ?_, reached.short canonical.1 flags⟩
      rw [collapse_short_of_not_value notValue]
      simp only [expandNode, sameKey, Tangerine.Trie.get,
        if_neg ((mismatch_iff _ nkey).not.mpr (not_not.mpr (List.prefix_append nkey rest))),
        List.drop_left, got]
    · -- a terminated key ends at its value
      have sameKey := compactToHex_hexToCompact_of_digits digits true
      simp only [if_true] at sameKey
      have ended : rest = [] := by
        simpa using (Terminated.eq_of_isPrefix ⟨ds, digits, rfl⟩ terminated
          (List.prefix_append _ rest)).symm
      subst ended
      refine ⟨([], .value v), ?_, .value ?_⟩
      · simp only [collapse, expandNode, sameKey, Tangerine.Trie.get,
          if_neg ((mismatch_iff _ _).not.mpr (not_not.mpr (List.prefix_append _ [])))]
      · rw [nodeMap_short, KeyMap.under_append_apply, nodeMap_value, KeyMap.single_apply, if_pos rfl]
  | full children flags inductionHypothesis =>
    obtain ⟨i, rest, rfl⟩ := List.exists_cons_of_ne_nil terminated.ne_nil
    by_cases slot : i = terminator
    · -- the value slot ends the key, and holds a leaf
      subst slot
      have ended := terminated.eq_nil_of_terminator
      subst ended
      have leaf := keyed.2
      cases value : children terminator with
      | nil =>
        have slot : children 16 = .nil := value
        refine ⟨([], .nil), ?_, .absent (by simp [value])⟩
        simp [collapse, expandNode, Tangerine.Trie.get, slot, terminator, Node.raw]
      | value v =>
        have slot : children 16 = .value v := value
        refine ⟨([], .value v), ?_, .value (by simp [value, KeyMap.single_apply])⟩
        simp [collapse, expandNode, Tangerine.Trie.get, slot, terminator, Node.raw]
      | _ => simp [value, Leaf] at leaf
    · -- below a nibble, a child held by reference
      have nibble : i.val < 16 := by
        have := i.isLt
        have : i.val ≠ 16 := fun same => slot (Fin.ext same)
        omega
      obtain ⟨r, got, reached⟩ := get_reference (keyed.1 i slot)
        (inductionHypothesis i (keyed.1 i slot) (canonical.2 i) (terminated.tail slot) none)
      refine ⟨r, ?_, reached.full flags⟩
      simp only [collapse, expandNode, Tangerine.Trie.get, if_pos nibble, got]

end Get

section Prove

variable {keccak : Bytes → Bytes}

/-- With right cached hashes, the walk of the hasher collapses a node to its stored form. -/
theorem hashChildren_collapse (hasher : Hasher) {c : Node} {top : Bool}
    (caches : CachesRight keccak top c) : (hasher.hashChildren keccak c false).1 = collapse keccak c := by
  cases c with
  | short key val flags => exact hashChildrenShort_fst (hash_right hasher caches.2).hashed_eq
  | full children flags => exact hashChildrenFull_fst fun i => (hash_right hasher (caches.2 i)).hashed_eq
  | hash _ | value _ | nil => rfl

/-- With a right cached hash, storing a node's stored form gives the reference its parent holds. -/
theorem store_collapse {c : Node} {top : Bool} (caches : CachesRight keccak top c) :
    Hasher.store keccak (collapse keccak c) c.cache.1 false false =
      (reference keccak false (collapse keccak c), []) := by
  -- a cached hash is the hash of the encoding, which is what a large node gives way to
  have cachedRight : ∀ hash, c.cache.1 = some hash →
      reference keccak top (collapse keccak c) = .hash hash := by
    intro hash cached
    cases c with
    | short key val flags => exact caches.1 hash cached
    | full children flags => exact caches.1 hash cached
    | _ => simp [Node.cache] at cached
  cases cached : c.cache.1 with
  | none => exact store_none _ false
  | some hash =>
    have right := cachedRight hash cached
    have shaped : ∃ key val, collapse keccak c = .short key val ∨ ∃ children, collapse keccak c = .full children := by
      cases c with
      | short key val flags => exact ⟨_, _, .inl rfl⟩
      | full children flags => exact ⟨[], .nil, .inr ⟨_, rfl⟩⟩
      | _ => simp [Node.cache] at cached
    generalize collapse keccak c = r at right shaped ⊢
    obtain ⟨key, val, rfl | ⟨children, rfl⟩⟩ := shaped
    all_goals
      unfold reference at right ⊢
      unfold Hasher.store
      split_ifs at right ⊢ with small small'
      all_goals simp_all

/-- The second loop of `Prove` writes every node of the path that storing turns into a hash. -/
theorem mem_proofWrites (hasher : Hasher) {c : Node} {nodes : List Node} (mem : c ∈ nodes)
    {d : Bytes}
    (hashed : Hasher.asHash (Hasher.store keccak (hasher.hashChildren keccak c false).1 c.cache.1
      false false).1 = some d) (i : Nat) :
    (d, (hasher.hashChildren keccak c false).1.encode) ∈ proofWrites keccak hasher i 0 nodes := by
  induction nodes generalizing i with
  | nil => simp at mem
  | cons n nodes inductionHypothesis =>
    rcases List.mem_cons.mp mem with rfl | mem
    · simp [proofWrites, hashed]
    · have later := inductionHypothesis mem (i + 1)
      simp only [proofWrites, gt_iff_lt, Nat.lt_irrefl, if_false]
      split
      · exact List.mem_cons_of_mem _ later
      · exact later

/-- The root is the first proof element. -/
theorem proofWrites_root (hasher : Hasher) (n : Node) (nodes : List Node) :
    ∃ rest, proofWrites keccak hasher 0 0 (n :: nodes) =
      ((Hasher.asHash (Hasher.store keccak (hasher.hashChildren keccak n false).1 n.cache.1
        false false).1).getD (keccak (hasher.hashChildren keccak n false).1.encode),
        (hasher.hashChildren keccak n false).1.encode) :: rest := by
  simp [proofWrites]

/-- A leaf that is there is a value, which no key goes on from. -/
theorem not_keyed_leaf {m : Node} (leaf : Leaf m) (keyed : Keyed m) (live : m.isNil = false) :
    False := by
  cases m with
  | nil => simp [Node.isNil] at live
  | value v => exact keyed
  | _ => exact leaf

/-- The first loop of `Prove` on a keyed node at a terminated key. -/
theorem pathNodes_keyed (t : Trie) {n : Node} (keyed : Keyed n) {key : List Nibble}
    (terminated : Terminated key) :
    ∃ nodes, t.pathNodes n key = .ok nodes ∧ (n.isNil = false → ∃ rest, nodes = n :: rest) ∧
      ∀ p m rest, Below n p m → key = p ++ rest → rest ≠ [] → Keyed m → m.isNil = false →
        m ∈ nodes := by
  obtain ⟨k, ks, rfl⟩ := List.exists_cons_of_ne_nil terminated.ne_nil
  induction n generalizing k ks with
  | nil =>
    refine ⟨[], by simp [Trie.pathNodes], fun live => by simp [Node.isNil] at live, ?_⟩
    intro p m rest below _ _ _ live
    have leaf : Leaf Node.nil := trivial
    rw [below.eq_of_leaf leaf] at live
    simp [Node.isNil] at live
  | hash _ | value _ => exact keyed.elim
  | short nkey val flags inductionHypothesis =>
    by_cases inside : nkey <+: k :: ks
    swap
    · -- the path ends at a short node whose key does not match
      refine ⟨[.short nkey val flags], ?_, fun _ => ⟨[], rfl⟩, ?_⟩
      · simp only [Trie.pathNodes]
        rw [if_pos ((mismatch_iff _ nkey).mpr inside)]
      · intro p m rest below split _ _ _
        cases below with
        | refl => simp
        | short flags below' =>
          exact absurd ⟨_, (split.trans (List.append_assoc _ _ _)).symm⟩ inside
    obtain ⟨key', split⟩ := inside
    have dropped : (k :: ks).drop nkey.length = key' := by rw [← split, List.drop_left]
    have unfolded : t.pathNodes (.short nkey val flags) (k :: ks) =
        (t.pathNodes val key').map (.short nkey val flags :: ·) := by
      simp only [Trie.pathNodes]
      rw [if_neg ((mismatch_iff _ nkey).not.mpr (not_not.mpr ⟨key', split⟩)), dropped]
    rcases keyed with ⟨digits, keyedVal⟩ | ⟨terminatedKey, v, rfl⟩
    · -- below a key of digits the path goes on in the child
      have terminated' : Terminated key' := (split ▸ terminated).drop_digits digits
      obtain ⟨k', ks', rfl⟩ := List.exists_cons_of_ne_nil terminated'.ne_nil
      obtain ⟨nodes, got, -, members⟩ := inductionHypothesis keyedVal k' ks' terminated'
      refine ⟨.short nkey val flags :: nodes, by rw [unfolded, got]; rfl, fun _ => ⟨_, rfl⟩, ?_⟩
      intro p m rest below split' restNe keyedM liveM
      cases below with
      | refl => exact List.mem_cons_self
      | short flags below' =>
        have rest' : k' :: ks' = _ ++ rest := List.append_cancel_left
          (split.trans (split'.trans (List.append_assoc _ _ _)))
        exact List.mem_cons_of_mem _ (members _ m rest below' rest' restNe keyedM liveM)
    · -- a terminated key ends at the value, which is off the path
      have ended : key' = [] := by
        simpa using (terminatedKey.eq_of_isPrefix (split ▸ terminated) (List.prefix_append _ key')).symm
      subst ended
      have ends : t.pathNodes (.value v) [] = .ok [] := by simp [Trie.pathNodes]
      refine ⟨[.short nkey (.value v) flags], by rw [unfolded, ends]; rfl, fun _ => ⟨_, rfl⟩, ?_⟩
      intro p m rest below _ _ keyedM _
      cases below with
      | refl => exact List.mem_cons_self
      | short flags below' =>
        have leaf : Leaf (.value v) := trivial
        rw [below'.eq_of_leaf leaf] at keyedM
        exact keyedM.elim
  | full children flags inductionHypothesis =>
    have unfolded : t.pathNodes (.full children flags) (k :: ks) =
        (t.pathNodes (children k) ks).map (.full children flags :: ·) := by
      simp only [Trie.pathNodes]
    by_cases slot : k = terminator
    · -- the value slot ends the key, and holds no keyed node that is there
      subst slot
      have ended := terminated.eq_nil_of_terminator
      subst ended
      have ends : t.pathNodes (children terminator) [] = .ok [] := by simp [Trie.pathNodes]
      refine ⟨[.full children flags], by rw [unfolded, ends]; rfl, fun _ => ⟨_, rfl⟩, ?_⟩
      intro p m rest below split _ keyedM liveM
      cases below with
      | refl => exact List.mem_cons_self
      | full flags i below' =>
        obtain ⟨rfl, -⟩ := List.cons.inj split
        rw [below'.eq_of_leaf keyed.2] at keyedM liveM
        exact (not_keyed_leaf keyed.2 keyedM liveM).elim
    · have terminated' := terminated.tail slot
      obtain ⟨k', ks', rfl⟩ := List.exists_cons_of_ne_nil terminated'.ne_nil
      obtain ⟨nodes, got, -, members⟩ :=
        inductionHypothesis k (keyed.1 k slot) k' ks' terminated'
      refine ⟨.full children flags :: nodes, by rw [unfolded, got]; rfl, fun _ => ⟨_, rfl⟩, ?_⟩
      intro p m rest below split restNe keyedM liveM
      cases below with
      | refl => exact List.mem_cons_self
      | full flags i below' =>
        obtain ⟨rfl, rest'⟩ := List.cons.inj split
        exact List.mem_cons_of_mem _ (members _ m rest below' rest' restNe keyedM liveM)

/-- A keyed node held by hash is held under the hash of its stored encoding. -/
theorem eq_keccak_of_reference {m : Node} (keyed : Keyed m) {d : Bytes}
    (hashed : reference keccak false (collapse keccak m) = .hash d) :
    d = keccak (collapse keccak m).encode := by
  have notHash : ∀ h, collapse keccak m ≠ .hash h := by
    intro h
    cases m with
    | short _ _ _ | full _ _ | nil => simp [collapse]
    | hash _ | value _ => exact keyed.elim
  generalize collapse keccak m = r at notHash hashed ⊢
  cases r with
  | hash h => exact absurd rfl (notHash h)
  | nil => cases hashed
  | value _ | short _ _ | full _ =>
    simp only [reference] at hashed
    -- an embedded node is not a hash, so storing hashed it
    split_ifs at hashed
    cases hashed
    rfl

/-- `Prove` writes a keyed node under the hash of its stored encoding. -/
theorem getD_asHash_reference {m : Node} (keyed : Keyed m) :
    (Hasher.asHash (reference keccak false (collapse keccak m))).getD
      (keccak (collapse keccak m).encode) = keccak (collapse keccak m).encode := by
  cases hashed : reference keccak false (collapse keccak m) with
  | hash d => exact eq_keccak_of_reference keyed hashed
  | _ => rfl

/-- A keyed node that is there stands for the hash of its stored form, as a root. -/
theorem rootHash_of_keyed {n : Node} (keyed : Keyed n) (live : n.isNil = false) :
    rootHash keccak n = keccak (collapse keccak n).encode := by
  cases n with
  | short key val flags => simp [rootHash, reference, collapse]
  | full children flags => simp [rootHash, reference, collapse]
  | nil => simp [Node.isNil] at live
  | hash _ | value _ => exact keyed.elim

/-- What `Prove` writes for a sound trie whose root is there. -/
theorem Prove_writes {t : Trie} (sound : Sound keccak t) (live : t.root.isNil = false)
    (key : Bytes) :
    ∃ proof, t.Prove keccak key 0 = .ok proof ∧
      (rootHash keccak t.root, (collapse keccak t.root).encode) ∈ proof ∧
      ∀ p m rest d, Below t.root p m → keybytesToHex key = p ++ rest → p ≠ [] → Keyed m →
        m.isNil = false → reference keccak false (collapse keccak m) = .hash d →
        (d, (collapse keccak m).encode) ∈ proof := by
  obtain ⟨nodes, got, head, members⟩ :=
    pathNodes_keyed t sound.keyed (terminated_keybytesToHex key)
  obtain ⟨tail, rfl⟩ := head live
  refine ⟨proofWrites keccak ⟨0, 0⟩ 0 0 (t.root :: tail), by simp only [Trie.Prove, got]; rfl, ?_, ?_⟩
  · -- the root comes first, under the hash of its encoding
    obtain ⟨rest, first⟩ := @proofWrites_root keccak ⟨0, 0⟩ t.root tail
    rw [first, hashChildren_collapse _ sound.caches, store_collapse sound.caches]
    dsimp only
    rw [getD_asHash_reference sound.keyed, rootHash_of_keyed sound.keyed live]
    exact List.mem_cons_self
  · -- a node below the root caches as a child, and storing gives its reference
    intro p m rest d below split nonempty keyedM liveM hashed
    have caches : CachesRight keccak false m := by
      rcases below.cachesBy sound.caches with ⟨empty, -⟩ | caches
      · exact absurd empty nonempty
      · exact caches
    have digits := below.digits sound.keyed keyedM liveM
    have terminated : Terminated rest := (split ▸ terminated_keybytesToHex key).drop_digits digits
    have written := @mem_proofWrites keccak ⟨0, 0⟩ m _
      (members p m rest below split terminated.ne_nil keyedM liveM) d
      (by rw [hashChildren_collapse _ caches, store_collapse caches, hashed]; rfl) 0
    rwa [hashChildren_collapse _ caches] at written

end Prove

section Verify

variable {keccak : Bytes → Bytes}

/-- A proof database of consistent writes gives each key the value written under it. -/
theorem memoryGet_of_mem {writes : List (Bytes × Bytes)}
    (consistent : ∀ w ∈ writes, ∀ w' ∈ writes, w.1 = w'.1 → w.2 = w'.2) {key value : Bytes}
    (mem : (key, value) ∈ writes) : memoryGet writes key = some value := by
  unfold memoryGet
  cases found : writes.reverse.find? (fun w => w.1 == key) with
  | none =>
    have missing := List.find?_eq_none.mp found (key, value) (List.mem_reverse.mpr mem)
    simp at missing
  | some w =>
    have same := List.find?_some found
    have written := List.mem_reverse.mp (List.mem_of_find?_eq_some found)
    simp only [Option.map_some, Option.some.injEq]
    exact consistent w written (key, value) mem (by simpa using same)

theorem copyHash_of_length {wantHash cld : Bytes} (sized : cld.length = wantHash.length) :
    copyHash wantHash cld = cld := by
  simp [copyHash, ← sized]

/-- The loop of `VerifyProof` walks the key's path through a proof database that holds it. -/
theorem verifyProofFrom_path (digest : ∀ data, (keccak data).length = hashLen) {root : Node}
    (keyed : Keyed root) (canonical : Canonical root)
    (valued : ∀ hex v, nodeMap root hex = some v → v ≠ []) (fits : Fits keccak root)
    {key : List Nibble} (terminated : Terminated key) {proofDb : Bytes → Option Bytes}
    (holds : ∀ p m rest d, Below root p m → key = p ++ rest → p ≠ [] → Keyed m → m.isNil = false →
      reference keccak false (collapse keccak m) = .hash d → proofDb d = some (collapse keccak m).encode)
    (fuel i : Nat) {wantHash : Bytes} {p : List Nibble} {m : Node} {rest : List Nibble}
    (below : Below root p m) (split : key = p ++ rest) (keyedM : Keyed m) (live : m.isNil = false)
    (sized : wantHash.length = hashLen) (stored : proofDb wantHash = some (collapse keccak m).encode)
    (enough : rest.length < fuel) :
    ∃ count, verifyProofFrom proofDb fuel i wantHash rest = some (.ok (nodeMap m rest, count)) := by
  induction fuel generalizing i wantHash p m rest with
  | zero => omega
  | succ fuel inductionHypothesis =>
    -- the node read back, and what `get` finds in it
    have digits := below.digits keyed keyedM live
    have canonicalM := below.canonical canonical
    have valuedM : ∀ x v, nodeMap m x = some v → v ≠ [] := fun x v held =>
      valued (p ++ x) v (by rw [below.nodeMap]; exact held)
    have decoded : decodeNode (some wantHash) (collapse keccak m).encode 0 =
        .ok (expandNode (some wantHash) (collapse keccak m) 0) := by
      have back := decodesBack_of_stored 0 (stored_collapse digest keyedM canonicalM valuedM live)
        (fits p m below) (some wantHash) []
      rwa [List.append_nil] at back
    obtain ⟨r, got, found⟩ : ∃ r, Tangerine.Trie.get (expandNode (some wantHash) (collapse keccak m) 0)
        rest = .ok r ∧ Found keccak m rest r :=
      get_expandNode keyedM canonicalM ((split ▸ terminated).drop_digits digits) _
    cases found with
    | value held => exact ⟨i + 1, by simp [verifyProofFrom, stored, decoded, got, held]⟩
    | absent held => exact ⟨i, by simp [verifyProofFrom, stored, decoded, got, held]⟩
    | @hashed p' rest' m' d below' split' nonempty keyed' live' hashed =>
      -- the next node of the path, held under its hash
      have sized' : d.length = hashLen := by
        rw [eq_keccak_of_reference keyed' hashed]
        exact digest _
      obtain ⟨count, next⟩ := inductionHypothesis (i + 1) (below.trans below')
        (by rw [split, split', List.append_assoc]) keyed' live' sized'
        (holds _ m' rest' d (below.trans below') (by rw [split, split', List.append_assoc])
          (by simp [nonempty]) keyed' live' hashed)
        (by
          have longer : rest'.length < rest.length := by
            rw [split']
            simp only [List.length_append]
            have := List.length_pos_of_ne_nil nonempty
            omega
          omega)
      refine ⟨count, ?_⟩
      rw [split', below'.nodeMap, ← next]
      simp [verifyProofFrom, stored, decoded, ← split', got, copyHash_of_length (sized'.trans sized.symm)]

end Verify

section Complete

variable {keccak : Bytes → Bytes}

/-- A proof `Prove` gives for a sound trie verifies, and returns the trie's value at the key. -/
theorem VerifyProof_Prove (digest : ∀ data, (keccak data).length = hashLen) {t : Trie}
    (sound : Sound keccak t) (valued : ∀ key v, contents t key = some v → v ≠ [])
    (live : t.root.isNil = false) (fits : Fits keccak t.root) (key : Bytes) :
    ∃ proof, t.Prove keccak key 0 = .ok proof ∧
      ((∀ w ∈ proof, ∀ w' ∈ proof, w.1 = w'.1 → w.2 = w'.2) →
        ∀ fuel, (keybytesToHex key).length < fuel →
          ∃ count, VerifyProof (bytesToHash (rootHash keccak t.root)) key (memoryGet proof) fuel =
            some (.ok (contents t key, count))) := by
  obtain ⟨proof, proved, rootWritten, written⟩ := Prove_writes sound live key
  refine ⟨proof, proved, fun consistent fuel enough => ?_⟩
  have sized : (rootHash keccak t.root).length = hashLen := by
    rw [rootHash_of_keyed sound.keyed live]
    exact digest _
  -- the loop starts at the root, held under the root hash, with the whole HEX key left
  unfold VerifyProof
  rw [hashToBytes_bytesToHash sized]
  exact verifyProofFrom_path digest sound.keyed sound.canonical (valued_nodeMap sound valued) fits
    (terminated_keybytesToHex key)
    (fun p m rest d below split nonempty keyedM liveM hashed =>
      memoryGet_of_mem consistent (written p m rest d below split nonempty keyedM liveM hashed))
    fuel 0 (.refl t.root) (List.nil_append _).symm sound.keyed live sized
    (memoryGet_of_mem consistent rootWritten) enough

/-- Every run of calls from the empty trie leaves a trie whose proofs verify. -/
theorem runCalls_VerifyProof_Prove (keccak : Bytes → Bytes)
    (digest : ∀ data, (keccak data).length = hashLen) (db : Database) (calls : List Call) :
    ∃ t, (runCalls keccak (Trie.empty db) calls).map Prod.fst = .ok t ∧
      ∀ key, t.root.isNil = false → Fits keccak t.root →
        ∃ proof, t.Prove keccak key 0 = .ok proof ∧
          ((∀ w ∈ proof, ∀ w' ∈ proof, w.1 = w'.1 → w.2 = w'.2) →
            ∀ fuel, (keybytesToHex key).length < fuel →
              ∃ count, VerifyProof (bytesToHash (rootHash keccak t.root)) key (memoryGet proof) fuel =
                some (.ok ((applyCalls keccak (fun _ => none) calls).1 key, count))) := by
  obtain ⟨t, ran, mapEq, sound⟩ := runCalls_refines (sound_empty keccak db) calls
  refine ⟨t, by rw [ran]; rfl, fun key live fits => ?_⟩
  have complete := VerifyProof_Prove digest sound (valued_of_calls mapEq) live fits key
  rwa [mapEq] at complete

/-- One key set, under a hash that is 32 zero bytes whatever it hashes. -/
theorem runCalls_VerifyProof_Prove_zeroHash :
    (∀ data : Bytes, ((fun _ => List.replicate 32 0) data : Bytes).length = hashLen) ∧
    ∃ t, (runCalls (fun _ => List.replicate 32 0) (Trie.empty .empty) [.update [1] [2]]).map
        Prod.fst = .ok t ∧
      ∀ key, t.root.isNil = false → Fits (fun _ => List.replicate 32 0) t.root →
        ∃ proof, t.Prove (fun _ => List.replicate 32 0) key 0 = .ok proof ∧
          ((∀ w ∈ proof, ∀ w' ∈ proof, w.1 = w'.1 → w.2 = w'.2) →
            ∀ fuel, (keybytesToHex key).length < fuel →
              ∃ count, VerifyProof (bytesToHash (rootHash (fun _ => List.replicate 32 0) t.root))
                  key (memoryGet proof) fuel =
                some (.ok ((applyCalls (fun _ => List.replicate 32 0) (fun _ => none)
                  [.update [1] [2]]).1 key, count))) := by
  have digest : ∀ data : Bytes, ((fun _ => List.replicate 32 0) data : Bytes).length = hashLen :=
    fun _ => by simp [hashLen]
  exact ⟨digest, runCalls_VerifyProof_Prove _ digest .empty [.update [1] [2]]⟩

end Complete

end Tangerine.Proof.TrieProofs
