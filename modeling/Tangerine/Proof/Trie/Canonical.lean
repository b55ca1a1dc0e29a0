import Tangerine.Proof.Trie.Shape

/-! A canonical keyed node is fixed by its map, up to its flags. -/

namespace Tangerine.Proof.TrieCanonical

open Tangerine.Common Tangerine.Trie Tangerine.Library Tangerine.Proof.TrieKeys
  Tangerine.Proof.TrieShape

/-- The flags a node with its flags erased carries. -/
def blankFlag : NodeFlag := ⟨none, 0, false⟩

/-- A node with the flags of every node in it erased. -/
def eraseFlags : Node → Node
  | .full children _ => .full (fun i => eraseFlags (children i)) blankFlag
  | .short key val _ => .short key (eraseFlags val) blankFlag
  | .hash digest => .hash digest
  | .value v => .value v
  | .nil => .nil

section EraseFlags

@[simp] theorem eraseFlags_short (key : List Nibble) (val : Node) (flags : NodeFlag) :
    eraseFlags (.short key val flags) = .short key (eraseFlags val) blankFlag := rfl

@[simp] theorem eraseFlags_full (children : Fin 17 → Node) (flags : NodeFlag) :
    eraseFlags (.full children flags) = .full (fun i => eraseFlags (children i)) blankFlag := rfl

@[simp] theorem isNil_eraseFlags (n : Node) : (eraseFlags n).isNil = n.isNil := by
  cases n <;> rfl

theorem leaf_eraseFlags {n : Node} : Leaf (eraseFlags n) ↔ Leaf n := by
  cases n <;> simp [eraseFlags, Leaf]

theorem solid_eraseFlags {n : Node} : Solid (eraseFlags n) ↔ Solid n := by
  cases n <;> simp [eraseFlags, Solid]

@[simp] theorem nodeMap_eraseFlags (n : Node) : nodeMap (eraseFlags n) = nodeMap n := by
  induction n with
  | full children flags inductionHypothesis => simp [inductionHypothesis]
  | short key val flags inductionHypothesis => simp [inductionHypothesis]
  | _ => rfl

theorem keyed_eraseFlags {n : Node} : Keyed (eraseFlags n) ↔ Keyed n := by
  induction n with
  | full children flags inductionHypothesis =>
    simp only [eraseFlags_full, Keyed, inductionHypothesis, leaf_eraseFlags]
  | short key val flags inductionHypothesis =>
    simp only [eraseFlags_short, Keyed, inductionHypothesis]
    constructor
    · rintro (keyedVal | ⟨terminated, v, erased⟩)
      · exact .inl keyedVal
      · cases val <;> simp_all [eraseFlags]
    · rintro (keyedVal | ⟨terminated, v, rfl⟩)
      · exact .inl keyedVal
      · exact .inr ⟨terminated, v, rfl⟩
  | _ => rfl

theorem canonical_eraseFlags {n : Node} : Canonical (eraseFlags n) ↔ Canonical n := by
  induction n with
  | full children flags inductionHypothesis =>
    simp only [eraseFlags_full, Canonical, TwoLive, isNil_eraseFlags, inductionHypothesis]
  | short key val flags inductionHypothesis =>
    simp only [eraseFlags_short, Canonical, solid_eraseFlags, inductionHypothesis]
  | _ => rfl

end EraseFlags

/-- The shapes of the nodes of a trie in memory. -/
structure Shaped (n : Node) : Prop where
  keyed : Keyed n ∨ Leaf n
  canonical : Canonical n

section Shaped

theorem Shaped.of_keyed {n : Node} (keyed : Keyed n) (canonical : Canonical n) : Shaped n :=
  ⟨.inl keyed, canonical⟩

/-- A hash node is neither keyed nor a leaf. -/
theorem Shaped.not_hash {digest : Bytes} : ¬ Shaped (.hash digest) :=
  fun shaped => shaped.keyed.elim id id

/-- Below a shaped full node, the children are shaped. -/
theorem Shaped.child {children : Fin 17 → Node} {flags : NodeFlag}
    (shaped : Shaped (.full children flags)) (i : Fin 17) : Shaped (children i) := by
  have keyed : Keyed (.full children flags) := shaped.keyed.resolve_right id
  refine ⟨?_, shaped.canonical.2 i⟩
  by_cases slot : i = terminator
  · subst slot
    exact .inr keyed.2
  · exact .inl (keyed.1 i slot)

/-- A shaped short node has a key and, below it, a value or a shaped full node. -/
theorem Shaped.short_cases {key : List Nibble} {val : Node} {flags : NodeFlag}
    (shaped : Shaped (.short key val flags)) :
    key ≠ [] ∧ ((∃ v, val = .value v) ∨
      (∃ children flags', val = .full children flags') ∧ Shaped val) := by
  have keyed : Keyed (.short key val flags) := shaped.keyed.resolve_right id
  obtain ⟨nonempty, solid, canonical⟩ := shaped.canonical
  refine ⟨nonempty, ?_⟩
  rcases keyed with ⟨-, keyedVal⟩ | ⟨-, v, rfl⟩
  · -- a keyed node that can stand below a short node is a full node
    cases val with
    | full children flags' => exact .inr ⟨⟨children, flags', rfl⟩, .of_keyed keyedVal canonical⟩
    | _ => simp_all [Keyed, Solid]
  · exact .inl ⟨v, rfl⟩

/-- A shaped node that is there holds a value. -/
theorem exists_of_live {n : Node} (shaped : Shaped n) (live : n.isNil = false) :
    ∃ key, nodeMap n key ≠ none := by
  induction n with
  | nil => simp [Node.isNil] at live
  | value v => exact ⟨[], by simp [KeyMap.single_apply]⟩
  | hash digest => exact absurd shaped Shaped.not_hash
  | short key val flags inductionHypothesis =>
    obtain ⟨-, ⟨v, rfl⟩ | ⟨⟨children, flags', rfl⟩, shapedVal⟩⟩ := shaped.short_cases
    · exact ⟨key ++ [], by rw [nodeMap_short, KeyMap.under_append_apply]; simp [KeyMap.single_apply]⟩
    · obtain ⟨rest, found⟩ := inductionHypothesis shapedVal rfl
      exact ⟨key ++ rest, by simpa using found⟩
  | full children flags inductionHypothesis =>
    obtain ⟨i, -, -, liveI, -⟩ := shaped.canonical.1
    obtain ⟨rest, found⟩ := inductionHypothesis i (shaped.child i) liveI
    exact ⟨i :: rest, by simpa using found⟩

/-- The map of a shaped full node forks: two of its children hold values. -/
theorem forks_full {children : Fin 17 → Node} {flags : NodeFlag}
    (shaped : Shaped (.full children flags)) : KeyMap.Forks (nodeMap (.full children flags)) := by
  obtain ⟨i, j, parted, liveI, liveJ⟩ := shaped.canonical.1
  obtain ⟨ki, foundI⟩ := exists_of_live (shaped.child i) liveI
  obtain ⟨kj, foundJ⟩ := exists_of_live (shaped.child j) liveJ
  exact KeyMap.forks_branch parted foundI foundJ

/-- Only a full node's map forks. -/
theorem full_of_forks {n : Node} (shaped : Shaped n) (forks : KeyMap.Forks (nodeMap n)) :
    ∃ children flags, n = .full children flags := by
  cases n with
  | full children flags => exact ⟨children, flags, rfl⟩
  | short key val flags =>
    obtain ⟨nonempty, -⟩ := shaped.short_cases
    obtain ⟨k, rest, rfl⟩ := List.exists_cons_of_ne_nil nonempty
    exact absurd forks (KeyMap.not_forks_under_cons k rest _)
  | value v =>
    obtain ⟨a, b, ka, kb, -, found, -⟩ := forks
    simp [KeyMap.single_apply] at found
  | hash digest => exact absurd shaped Shaped.not_hash
  | nil =>
    obtain ⟨a, b, ka, kb, -, found, -⟩ := forks
    simp at found

/-- Only nothing holds nothing. -/
theorem eq_nil_of_nodeMap {n : Node} (shaped : Shaped n) (empty : nodeMap n = KeyMap.empty) :
    n = .nil := by
  cases live : n.isNil with
  | true => cases n <;> simp_all [Node.isNil]
  | false =>
    obtain ⟨key, found⟩ := exists_of_live shaped live
    simp [empty] at found

/-- Only a value holds a value at the empty key. -/
theorem eq_value_of_nodeMap {n : Node} (shaped : Shaped n) {v : Bytes}
    (found : nodeMap n [] = some v) : n = .value v := by
  cases n with
  | value w => simpa [KeyMap.single_apply] using found
  | short key val flags =>
    obtain ⟨nonempty, -⟩ := shaped.short_cases
    obtain ⟨k, rest, rfl⟩ := List.exists_cons_of_ne_nil nonempty
    simp [KeyMap.under] at found
  | _ => simp at found

end Shaped

/-- Two shaped short nodes with the same map have the same key, and children of the same map. -/
theorem short_eq_of_nodeMap {key key' : List Nibble} {val val' : Node} {flags flags' : NodeFlag}
    (shaped : Shaped (.short key val flags)) (shaped' : Shaped (.short key' val' flags'))
    (same : nodeMap (.short key val flags) = nodeMap (.short key' val' flags')) :
    key = key' ∧ nodeMap val = nodeMap val' := by
  simp only [nodeMap_short] at same
  obtain ⟨-, ⟨v, rfl⟩ | ⟨⟨children, fullFlags, rfl⟩, shapedVal⟩⟩ := shaped.short_cases <;>
    obtain ⟨-, ⟨v', rfl⟩ | ⟨⟨children', fullFlags', rfl⟩, shapedVal'⟩⟩ := shaped'.short_cases
  · -- two values: each map is the map of one key
    simp only [nodeMap_value, KeyMap.under_single, List.append_nil] at same
    obtain ⟨keys, values⟩ := KeyMap.single_injective same
    subst keys values
    exact ⟨rfl, rfl⟩
  · simp only [nodeMap_value, KeyMap.under_single, List.append_nil] at same
    exact absurd same (KeyMap.single_ne_under (forks_full shapedVal'))
  · simp only [nodeMap_value, KeyMap.under_single, List.append_nil] at same
    exact absurd same.symm (KeyMap.single_ne_under (forks_full shapedVal))
  · -- two full nodes: both keys end where the keys below part
    have keys := KeyMap.eq_of_under_eq_under (forks_full shapedVal) (forks_full shapedVal') same
    subst keys
    exact ⟨rfl, KeyMap.under_injective key same⟩

/-- A canonical keyed node is fixed by its map, up to its flags. -/
theorem eraseFlags_eq_of_nodeMap {n n' : Node} (shaped : Shaped n) (shaped' : Shaped n')
    (same : nodeMap n = nodeMap n') : eraseFlags n = eraseFlags n' := by
  induction n generalizing n' with
  | nil => rw [eq_nil_of_nodeMap shaped' (by rw [← same]; rfl)]
  | value v =>
    rw [eq_value_of_nodeMap shaped' (v := v) (by rw [← same]; simp [KeyMap.single_apply])]
  | hash digest => exact absurd shaped Shaped.not_hash
  | full children flags inductionHypothesis =>
    obtain ⟨children', flags', rfl⟩ := full_of_forks shaped' (same ▸ forks_full shaped)
    have sameChildren : ∀ i, nodeMap (children i) = nodeMap (children' i) := by
      intro i
      funext key
      simpa using congrFun same (i :: key)
    simp only [eraseFlags_full]
    congr 1
    funext i
    exact inductionHypothesis i (shaped.child i) (shaped'.child i) (sameChildren i)
  | short key val flags inductionHypothesis =>
    obtain ⟨nonempty, kinds⟩ := shaped.short_cases
    have live : (Node.short key val flags).isNil = false := rfl
    obtain ⟨probe, found⟩ := exists_of_live shaped live
    -- `n'` holds a value, none at the empty key, and does not fork: a short node
    obtain ⟨key', val', flags', rfl⟩ : ∃ key' val' flags', n' = .short key' val' flags' := by
      cases n' with
      | short key' val' flags' => exact ⟨key', val', flags', rfl⟩
      | full children flags' =>
        obtain ⟨k, rest, rfl⟩ := List.exists_cons_of_ne_nil nonempty
        exact absurd (same ▸ forks_full shaped') (KeyMap.not_forks_under_cons k rest _)
      | value w =>
        obtain ⟨k, rest, rfl⟩ := List.exists_cons_of_ne_nil nonempty
        have atEmpty := congrFun same []
        simp [KeyMap.under, KeyMap.single_apply] at atEmpty
      | hash digest => exact absurd shaped' Shaped.not_hash
      | nil => exact absurd (congrFun same probe) (by simpa using found)
    obtain ⟨rfl, sameVal⟩ := short_eq_of_nodeMap shaped shaped' same
    have shapedVal : Shaped val := by
      rcases kinds with ⟨v, rfl⟩ | ⟨-, shapedVal⟩
      · exact ⟨.inr trivial, trivial⟩
      · exact shapedVal
    have shapedVal' : Shaped val' := by
      rcases shaped'.short_cases.2 with ⟨v, rfl⟩ | ⟨-, shapedVal'⟩
      · exact ⟨.inr trivial, trivial⟩
      · exact shapedVal'
    simp only [eraseFlags_short, inductionHypothesis shapedVal shapedVal' sameVal]

end Tangerine.Proof.TrieCanonical
