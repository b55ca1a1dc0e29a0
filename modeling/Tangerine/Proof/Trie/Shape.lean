import Tangerine.Trie.Trie
import Tangerine.Proof.Trie.Keys
import Tangerine.Library.KeyMap

/-! What a node of the trie holds, and the shapes `Keyed` and `Canonical` the trie keeps. -/

namespace Tangerine.Proof.TrieShape

open Tangerine.Common Tangerine.Trie Tangerine.Library Tangerine.Proof.TrieKeys

/-- The map from HEX keys to values that a node in memory holds. -/
def nodeMap : Node → List Nibble → Option Bytes
  | .full children _ => KeyMap.branch fun i => nodeMap (children i)
  | .short key val _ => KeyMap.under key (nodeMap val)
  | .value v => KeyMap.single [] v
  | .hash _ | .nil => KeyMap.empty

@[simp] theorem nodeMap_nil : nodeMap .nil = KeyMap.empty := rfl

@[simp] theorem nodeMap_value (v : Bytes) : nodeMap (.value v) = KeyMap.single [] v := rfl

@[simp] theorem nodeMap_hash (digest : Bytes) : nodeMap (.hash digest) = KeyMap.empty := rfl

@[simp] theorem nodeMap_short (key : List Nibble) (val : Node) (flags : NodeFlag) :
    nodeMap (.short key val flags) = KeyMap.under key (nodeMap val) := rfl

@[simp] theorem nodeMap_full (children : Fin 17 → Node) (flags : NodeFlag) :
    nodeMap (.full children flags) = KeyMap.branch fun i => nodeMap (children i) := rfl

theorem nodeMap_of_isNil {n : Node} (missing : n.isNil = true) : nodeMap n = KeyMap.empty := by
  cases n <;> simp_all [Node.isNil]

/-- A full node with one child holds what a one-nibble edge above that child holds. -/
theorem nodeMap_full_single {children : Fin 17 → Node} {i : Fin 17}
    (others : ∀ j, j ≠ i → (children j).isNil = true) (flags : NodeFlag) :
    nodeMap (.full children flags) = KeyMap.under [i] (nodeMap (children i)) :=
  KeyMap.branch_eq_under_singleton fun j ne => nodeMap_of_isNil (others j ne)

/-- A node at the end of a key: a value, or nothing. -/
def Leaf : Node → Prop
  | .nil | .value _ => True
  | _ => False

/-- A node whose keys below are terminated: no value and no hash node where a key goes on. -/
def Keyed : Node → Prop
  | .nil => True
  | .short key val _ => (Digits key ∧ Keyed val) ∨ (Terminated key ∧ ∃ v, val = .value v)
  | .full children _ => (∀ i, i ≠ terminator → Keyed (children i)) ∧ Leaf (children terminator)
  | .value _ | .hash _ => False

/-- A node that can stand below a short node: neither a short node nor nothing. -/
def Solid : Node → Prop
  | .short .. | .nil => False
  | _ => True

/-- The two children a full node has at least. -/
def TwoLive (children : Fin 17 → Node) : Prop :=
  ∃ i j, i ≠ j ∧ (children i).isNil = false ∧ (children j).isNil = false

/-- The canonical shape `delete` restores on its way up. -/
def Canonical : Node → Prop
  | .short key val _ => key ≠ [] ∧ Solid val ∧ Canonical val
  | .full children _ => TwoLive children ∧ ∀ i, Canonical (children i)
  | _ => True

/-- The hashes that a node and the nodes below it cache all satisfy `ok`. -/
def CachesBy (ok : Bool → Node → Bytes → Prop) (top : Bool) : Node → Prop
  | .short key val flags =>
    (∀ hash, flags.hash = some hash → ok top (.short key val flags) hash) ∧ CachesBy ok false val
  | .full children flags =>
    (∀ hash, flags.hash = some hash → ok top (.full children flags) hash) ∧
      ∀ i, CachesBy ok false (children i)
  | .hash _ | .value _ | .nil => True

section CachesBy

variable {ok : Bool → Node → Bytes → Prop} {top : Bool}

@[simp] theorem newFlag_hash (t : Trie) : t.newFlag.hash = none := rfl

/-- A short node that caches no hash, above a child whose caches satisfy `ok`. -/
theorem cachesBy_short_fresh {key : List Nibble} {val : Node} {flags : NodeFlag}
    (fresh : flags.hash = none) (below : CachesBy ok false val) :
    CachesBy ok top (.short key val flags) :=
  ⟨fun hash cached => by simp [fresh] at cached, below⟩

/-- A full node that caches no hash, above children whose caches satisfy `ok`. -/
theorem cachesBy_full_fresh {children : Fin 17 → Node} {flags : NodeFlag}
    (fresh : flags.hash = none) (below : ∀ i, CachesBy ok false (children i)) :
    CachesBy ok top (.full children flags) :=
  ⟨fun hash cached => by simp [fresh] at cached, below⟩

end CachesBy

theorem Leaf.keyed_short_terminator {n : Node} (leaf : Leaf n) (live : n.isNil = false)
    (flags : NodeFlag) : Keyed (.short [terminator] n flags) := by
  cases n with
  | value v => exact .inr ⟨terminated_terminator, v, rfl⟩
  | _ => simp_all [Leaf, Node.isNil]

theorem solid_of_live {n : Node} (live : n.isNil = false)
    (notShort : ∀ key val flags, n ≠ .short key val flags) : Solid n := by
  cases n with
  | short key val flags => exact absurd rfl (notShort key val flags)
  | nil => simp [Node.isNil] at live
  | _ => trivial

section TwoLive

variable {children : Fin 17 → Node}

/-- Two children stay live when a third is replaced, or when one is replaced by a live node. -/
theorem TwoLive.update {k : Fin 17} {n : Node} (two : TwoLive children) (live : n.isNil = false) :
    TwoLive (Function.update children k n) := by
  obtain ⟨i, j, ne, liveI, liveJ⟩ := two
  refine ⟨i, j, ne, ?_, ?_⟩
  · by_cases same : i = k
    · subst same
      simpa using live
    · rwa [Function.update_of_ne same]
  · by_cases same : j = k
    · subst same
      simpa using live
    · rwa [Function.update_of_ne same]

/-- Of two live children, one stays live when a third is replaced by anything. -/
theorem TwoLive.exists_live_update {k : Fin 17} (two : TwoLive children) (n : Node) :
    ∃ i, (Function.update children k n i).isNil = false := by
  obtain ⟨i, j, ne, liveI, liveJ⟩ := two
  by_cases same : i = k
  · subst same
    exact ⟨j, by rwa [Function.update_of_ne (Ne.symm ne)]⟩
  · exact ⟨i, by rwa [Function.update_of_ne same]⟩

/-- A full node's children: two live, one live, or none. -/
theorem twoLive_or_single_or_none (children : Fin 17 → Node) :
    TwoLive children ∨ (∃ i, (children i).isNil = false ∧ ∀ j, j ≠ i → (children j).isNil = true) ∨
      ∀ i, (children i).isNil = true := by
  by_cases some : ∃ i, (children i).isNil = false
  · obtain ⟨i, live⟩ := some
    by_cases other : ∃ j, j ≠ i ∧ (children j).isNil = false
    · obtain ⟨j, ne, liveJ⟩ := other
      exact .inl ⟨i, j, Ne.symm ne, live, liveJ⟩
    · refine .inr (.inl ⟨i, live, fun j ne => ?_⟩)
      simpa using fun missing => other ⟨j, ne, missing⟩
  · exact .inr (.inr fun i => by simpa using fun live => some ⟨i, live⟩)

end TwoLive

section TryGet

variable (t : Trie)

/-- A short node's key does not match the key from `pos` on exactly when it is no prefix of it. -/
theorem short_mismatch_iff (key : List Nibble) (pos : Nat) (nkey : List Nibble) :
    (key.length - pos < nkey.length ∨ nkey ≠ (key.drop pos).take nkey.length) ↔
      ¬ nkey <+: key.drop pos := by
  rw [List.prefix_iff_eq_take]
  constructor
  · rintro (short | differ) same
    · have := congrArg List.length same
      simp at this
      omega
    · exact differ same
  · intro differ
    exact .inr differ

theorem tryGet_leaf {n : Node} (leaf : Leaf n) (key : List Nibble) (pos : Nat) :
    t.tryGet n key pos = .ok (nodeMap n [], n, false) := by
  cases n with
  | nil => simp [Trie.tryGet]
  | value v => simp [Trie.tryGet, KeyMap.single_apply]
  | _ => exact absurd leaf id

/-- `tryGet` reads the value at a terminated key off a keyed node, and resolves nothing. -/
theorem tryGet_keyed {n : Node} (keyed : Keyed n) {key : List Nibble} {pos : Nat}
    (terminated : Terminated (key.drop pos)) :
    t.tryGet n key pos = .ok (nodeMap n (key.drop pos), n, false) := by
  induction n generalizing pos with
  | nil => simp [Trie.tryGet]
  | value v => exact absurd keyed id
  | hash h => exact absurd keyed id
  | short nkey val flags inductionHypothesis =>
    by_cases inside : nkey <+: key.drop pos
    · obtain ⟨rest, split⟩ := inside
      have dropped : key.drop (pos + nkey.length) = rest := by
        rw [← List.drop_drop, ← split, List.drop_left]
      have whole : Terminated (nkey ++ rest) := split ▸ terminated
      have recursed : t.tryGet val key (pos + nkey.length) = .ok (nodeMap val rest, val, false) := by
        rcases keyed with ⟨digits, keyedVal⟩ | ⟨terminatedKey, v, rfl⟩
        · have below := @inductionHypothesis keyedVal (pos + nkey.length)
            (by rw [dropped]; exact whole.drop_digits digits)
          rwa [dropped] at below
        · have ended : rest = [] := by
            simpa using (terminatedKey.eq_of_isPrefix whole (List.prefix_append nkey rest)).symm
          have leaf : Leaf (.value v) := trivial
          rw [ended]
          exact tryGet_leaf t leaf key _
      rw [Trie.tryGet, if_neg ((short_mismatch_iff key pos nkey).not.mpr (not_not.mpr ⟨rest, split⟩)),
        recursed]
      simp [← split]
    · rw [Trie.tryGet, if_pos ((short_mismatch_iff key pos nkey).mpr inside)]
      simp [KeyMap.under_apply_outside _ inside]
  | full children flags inductionHypothesis =>
    obtain ⟨i, rest, split⟩ : ∃ i rest, key.drop pos = i :: rest :=
      List.exists_cons_of_ne_nil terminated.ne_nil
    have indexed : key[pos]? = some i := by
      have first := congrArg (·[0]?) split
      simpa using first
    have dropped : key.drop (pos + 1) = rest := by
      rw [← List.drop_drop, split, List.drop_one, List.tail_cons]
    have recursed : t.tryGet (children i) key (pos + 1) = .ok (nodeMap (children i) rest, children i, false) := by
      by_cases slot : i = terminator
      · subst slot
        rw [split] at terminated
        rw [tryGet_leaf t keyed.2, terminated.eq_nil_of_terminator]
      · rw [← dropped]
        exact inductionHypothesis i (keyed.1 i slot) (dropped ▸ (split ▸ terminated).tail slot)
    rw [Trie.tryGet, indexed]
    simp [recursed, split]

/-- A keyed node is no hash node, and `resolve` leaves it as it is. -/
theorem resolve_keyed {n : Node} (keyed : Keyed n) (path : List Nibble) :
    t.resolve n path = .ok n := by
  cases n with
  | hash h => exact absurd keyed id
  | _ => rfl

end TryGet

section RemainingPos

/-- The body of the loop of `remainingPos`. -/
def remainingStep (children : Fin 17 → Node) (pos : Int) (i : Fin 17) : Iteration Int :=
  if (children i).isNil then .next pos
  else if pos = -1 then .next i.val
  else .exit (-2)

variable {children : Fin 17 → Node}

/-- Past missing children, the loop keeps its state. -/
theorem forBreak_remainingStep_of_nil {items : List (Fin 17)}
    (missing : ∀ i ∈ items, (children i).isNil = true) (pos : Int) :
    forBreak (remainingStep children) items pos = pos := by
  induction items with
  | nil => rfl
  | cons i items inductionHypothesis =>
    rw [forBreak, remainingStep, if_pos (missing i List.mem_cons_self)]
    exact inductionHypothesis (fun j mem => missing j (List.mem_cons_of_mem _ mem))

/-- With one child found, the loop stops at the next live child with `-2`. -/
theorem forBreak_remainingStep_of_found {items : List (Fin 17)} {j : Fin 17} (mem : j ∈ items)
    (live : (children j).isNil = false) {pos : Int} (found : pos ≠ -1) :
    forBreak (remainingStep children) items pos = -2 := by
  induction items generalizing pos with
  | nil => simp at mem
  | cons i items inductionHypothesis =>
    rw [forBreak, remainingStep]
    by_cases missing : (children i).isNil = true
    · rw [if_pos missing]
      have other : j ∈ items := by
        rcases List.mem_cons.mp mem with same | later
        · subst same
          simp [live] at missing
        · exact later
      exact inductionHypothesis other found
    · rw [if_neg missing, if_neg found]

/-- Two live children make the loop end with `-2`. -/
theorem forBreak_remainingStep_of_two {items : List (Fin 17)} {i j : Fin 17} (ne : i ≠ j)
    (memI : i ∈ items) (memJ : j ∈ items) (liveI : (children i).isNil = false)
    (liveJ : (children j).isNil = false) :
    forBreak (remainingStep children) items (-1) = -2 := by
  induction items with
  | nil => simp at memI
  | cons k items inductionHypothesis =>
    rw [forBreak, remainingStep]
    by_cases missing : (children k).isNil = true
    · rw [if_pos missing]
      have laterI : i ∈ items := (List.mem_cons.mp memI).resolve_left (by rintro rfl; simp_all)
      have laterJ : j ∈ items := (List.mem_cons.mp memJ).resolve_left (by rintro rfl; simp_all)
      exact inductionHypothesis laterI laterJ
    · rw [if_neg missing, if_pos rfl]
      have found : (k.val : Int) ≠ -1 := by omega
      by_cases same : k = i
      · subst same
        exact forBreak_remainingStep_of_found
          ((List.mem_cons.mp memJ).resolve_left (Ne.symm ne)) liveJ found
      · exact forBreak_remainingStep_of_found ((List.mem_cons.mp memI).resolve_left (Ne.symm same))
          liveI found

/-- The only live child is the one the loop finds. -/
theorem forBreak_remainingStep_of_unique {items : List (Fin 17)} (nodup : items.Nodup) {i : Fin 17}
    (mem : i ∈ items) (live : (children i).isNil = false)
    (others : ∀ j, j ≠ i → (children j).isNil = true) :
    forBreak (remainingStep children) items (-1) = i.val := by
  induction items with
  | nil => simp at mem
  | cons k items inductionHypothesis =>
    rw [forBreak, remainingStep]
    by_cases same : k = i
    · subst same
      rw [if_neg (by simp [live]), if_pos rfl]
      apply forBreak_remainingStep_of_nil
      intro j later
      exact others j (fun eq => (List.nodup_cons.mp nodup).1 (eq ▸ later))
    · rw [if_pos (others k same)]
      exact inductionHypothesis (List.nodup_cons.mp nodup).2
        ((List.mem_cons.mp mem).resolve_left (Ne.symm same))

theorem remainingPos_of_two (two : TwoLive children) : Trie.remainingPos children = -2 := by
  obtain ⟨i, j, ne, liveI, liveJ⟩ := two
  exact forBreak_remainingStep_of_two ne (List.mem_finRange i) (List.mem_finRange j) liveI liveJ

theorem remainingPos_of_none (missing : ∀ i, (children i).isNil = true) :
    Trie.remainingPos children = -1 :=
  forBreak_remainingStep_of_nil (fun i _ => missing i) (-1)

theorem remainingPos_of_unique {i : Fin 17} (live : (children i).isNil = false)
    (others : ∀ j, j ≠ i → (children j).isNil = true) : Trie.remainingPos children = i.val :=
  forBreak_remainingStep_of_unique (List.nodup_finRange 17) (List.mem_finRange i) live others

end RemainingPos

end Tangerine.Proof.TrieShape
