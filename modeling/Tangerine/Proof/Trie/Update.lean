import Tangerine.Proof.Trie.Shape

/-! `insert` and `delete` of `trie/trie.go` on a keyed node in memory, at a terminated key. -/

namespace Tangerine.Proof.TrieUpdate

open Tangerine.Common Tangerine.Trie Tangerine.Library Tangerine.Proof.TrieKeys
  Tangerine.Proof.TrieShape

variable (t : Trie)

/-- The node `insert` makes in an empty place. -/
def shortOrSelf (key : List Nibble) (n : Node) : Node :=
  match key with
  | [] => n
  | k :: rest => .short (k :: rest) n t.newFlag

section ShortOrSelf

variable {t}

theorem insert_nil (path key : List Nibble) (value : Node) :
    t.insert .nil path key value = .ok (true, shortOrSelf t key value) := by
  cases key <;> simp [Trie.insert, shortOrSelf]

@[simp] theorem nodeMap_shortOrSelf (key : List Nibble) (n : Node) :
    nodeMap (shortOrSelf t key n) = KeyMap.under key (nodeMap n) := by
  cases key <;> rfl

theorem live_shortOrSelf (key : List Nibble) {n : Node} (live : n.isNil = false) :
    (shortOrSelf t key n).isNil = false := by
  cases key <;> simp_all [shortOrSelf, Node.isNil]

theorem canonical_shortOrSelf (key : List Nibble) {n : Node} (solid : Solid n)
    (canonical : Canonical n) : Canonical (shortOrSelf t key n) := by
  cases key with
  | nil => exact canonical
  | cons k rest => exact ⟨List.cons_ne_nil _ _, solid, canonical⟩

theorem keyed_shortOrSelf_digits {key : List Nibble} (digits : Digits key) {n : Node}
    (keyed : Keyed n) : Keyed (shortOrSelf t key n) := by
  cases key with
  | nil => exact keyed
  | cons k rest => exact .inl ⟨digits, keyed⟩

theorem keyed_shortOrSelf_terminated {key : List Nibble} (terminated : Terminated key) (v : Bytes) :
    Keyed (shortOrSelf t key (.value v)) := by
  cases key with
  | nil => exact absurd rfl terminated.ne_nil
  | cons k rest => exact .inr ⟨terminated, v, rfl⟩

/-- The node in the same place when the key is empty, else below a short node. -/
theorem cachesBy_shortOrSelf {ok : Bool → Node → Bytes → Prop} {top : Bool} (key : List Nibble)
    {n : Node} (below : CachesBy ok false n) (here : CachesBy ok top n) :
    CachesBy ok top (shortOrSelf t key n) := by
  cases key with
  | nil => exact here
  | cons k rest => exact cachesBy_short_fresh rfl below

end ShortOrSelf

/-- What a full node's slot may hold: a leaf in the value slot, a keyed node below a digit. -/
def Slot (i : Nibble) (n : Node) : Prop := if i = terminator then Leaf n else Keyed n

section Slot

variable {t}

theorem keyed_full_iff (children : Fin 17 → Node) (flags : NodeFlag) :
    Keyed (.full children flags) ↔ ∀ i, Slot i (children i) := by
  constructor
  · rintro ⟨digits, slot⟩ i
    by_cases same : i = terminator
    · subst same
      simpa [Slot] using slot
    · simpa [Slot, same] using digits i same
  · intro slots
    refine ⟨fun i digit => ?_, by simpa [Slot] using slots terminator⟩
    simpa [Slot, digit] using slots i

theorem slot_nil (i : Nibble) : Slot i .nil := by
  by_cases same : i = terminator <;> simp [Slot, same, Leaf, Keyed]

/-- What holds of every child, and of the node put in place of one, holds of every child after. -/
theorem forall_update {P : Nibble → Node → Prop} {children : Fin 17 → Node}
    (all : ∀ i, P i (children i)) {k : Nibble} {n : Node} (new : P k n) :
    ∀ i, P i (Function.update children k n i) := by
  intro i
  by_cases same : i = k
  · subst same
    simpa using new
  · rw [Function.update_of_ne same]
    exact all i

/-- The children of a full node made of two nodes below two nibbles. -/
theorem forall_update_update {P : Node → Prop} (nil : P .nil) {a b : Nibble} {x y : Node}
    (px : P x) (py : P y) :
    ∀ i, P (Function.update (Function.update (fun _ => Node.nil) a x) b y i) :=
  forall_update (P := fun _ n => P n) (forall_update (P := fun _ n => P n) (fun _ => nil) px) py

/-- The rest of a terminated key after one of its nibbles, above a value. -/
theorem slot_shortOrSelf_terminated {key : List Nibble} (terminated : Terminated key) {m : Nat}
    (within : m < key.length) (v : Bytes) :
    Slot key[m] (shortOrSelf t (key.drop (m + 1)) (.value v)) := by
  have below : Terminated (key.drop m) := by
    have whole : Terminated (key.take m ++ key.drop m) := by rwa [List.take_append_drop]
    exact whole.drop_digits (terminated.digits_take within)
  rw [List.drop_eq_getElem_cons within] at below
  by_cases slot : key[m] = terminator
  · rw [slot] at below
    simp [Slot, slot, below.eq_nil_of_terminator, shortOrSelf, Leaf]
  · simpa [Slot, slot] using keyed_shortOrSelf_terminated (below.tail slot) v

end Slot

/-- What `insert` of a value at a terminated key leaves of a keyed node. -/
structure Inserted (n : Node) (key : List Nibble) (v : Bytes) (dirty : Bool) (n' : Node) : Prop where
  map_eq : nodeMap n' = Function.update (nodeMap n) key (some v)
  keyed : Keyed n'
  canonical : Canonical n → Canonical n'
  live : n'.isNil = false
  solid : Solid n → Solid n'
  clean : dirty = false → n' = n
  caches : ∀ ok top, CachesBy ok top n → CachesBy ok top n'

section Insert

variable {t}

/-- At the end of the key, `insert` puts the value node in place of the leaf. -/
theorem insert_leaf {n : Node} (leaf : Leaf n) (path : List Nibble) (v : Bytes) :
    ∃ dirty, t.insert n path [] (.value v) = .ok (dirty, .value v) ∧
      (dirty = false → n = .value v) := by
  cases n with
  | nil => exact ⟨true, by simp [Trie.insert], by simp⟩
  | value w =>
    refine ⟨w != v, by simp [Trie.insert], ?_⟩
    intro same
    rw [bne_eq_false_iff_eq] at same
    rw [same]
  | _ => exact absurd leaf id

theorem nodeMap_value_of_leaf {n : Node} (leaf : Leaf n) (v : Bytes) :
    nodeMap (.value v) = Function.update (nodeMap n) [] (some v) := by
  cases n with
  | nil => rfl
  | value w => simp [KeyMap.single]
  | _ => exact absurd leaf id

/-- A short node above what `insert` left below it: the edge's map with the key set below it. -/
theorem Inserted.short {nkey : List Nibble} {val nn : Node} {rest : List Nibble} {v : Bytes}
    {dirty : Bool} (digits : Digits nkey) (inserted : Inserted val rest v dirty nn)
    (flags flags' : NodeFlag) (fresh : flags'.hash = none) :
    Inserted (.short nkey val flags) (nkey ++ rest) v dirty
      (if !dirty then .short nkey val flags else .short nkey nn flags') := by
  cases dirty with
  | false =>
    rw [inserted.clean rfl] at inserted
    exact ⟨by simp [KeyMap.update_under, ← inserted.map_eq], .inl ⟨digits, inserted.keyed⟩, id,
      rfl, id, fun _ => rfl, fun _ _ => id⟩
  | true =>
    refine ⟨by simp [KeyMap.update_under, inserted.map_eq], .inl ⟨digits, inserted.keyed⟩, ?_,
      rfl, fun solid => absurd solid id, fun stale => absurd stale (by simp),
      fun ok top caches => cachesBy_short_fresh fresh (inserted.caches ok false caches.2)⟩
    rintro ⟨nonempty, solid, canonical⟩
    exact ⟨nonempty, inserted.solid solid, inserted.canonical canonical⟩

/-- `insert` where a short node's key starts the key: the value goes in below the short node. -/
theorem insert_short_below {nkey : List Nibble} {val : Node} {flags : NodeFlag}
    (keyed : Keyed (.short nkey val flags)) {key : List Nibble} (terminated : Terminated key)
    (pre : nkey <+: key) (path : List Nibble) (v : Bytes)
    (below : Keyed val → ∀ path rest, Terminated rest →
      ∃ dirty nn, t.insert val path rest (.value v) = .ok (dirty, nn) ∧ Inserted val rest v dirty nn) :
    ∃ dirty n', t.insert (.short nkey val flags) path key (.value v) = .ok (dirty, n') ∧
      Inserted (.short nkey val flags) key v dirty n' := by
  obtain ⟨k, rest, rfl⟩ := List.exists_cons_of_ne_nil terminated.ne_nil
  have whole : prefixLen (k :: rest) nkey = nkey.length := (prefixLen_eq_length_iff _ _).mpr pre
  obtain ⟨suffix, split⟩ := pre
  rw [Trie.insert]
  simp only [whole, if_true]
  rw [← split, List.take_left, List.drop_left]
  rw [← split] at terminated
  rcases keyed with ⟨digits, keyedVal⟩ | ⟨terminatedKey, w, rfl⟩
  · obtain ⟨dirty, nn, inserted, spec⟩ :=
      below keyedVal (path ++ nkey) suffix (terminated.drop_digits digits)
    rw [inserted]
    exact ⟨dirty, _, by cases dirty <;> rfl, spec.short digits flags t.newFlag rfl⟩
  · -- a terminated short key is the whole key, and the value is replaced below it
    have ended : suffix = [] := by
      simpa using (terminatedKey.eq_of_isPrefix terminated (List.prefix_append nkey suffix)).symm
    subst ended
    have leaf : Leaf (.value w) := trivial
    obtain ⟨dirty, inserted, clean⟩ := @insert_leaf t _ leaf (path ++ nkey) v
    rw [inserted]
    have mapEq : nodeMap (.short nkey (.value v) t.newFlag) =
        Function.update (nodeMap (.short nkey (.value w) flags)) (nkey ++ []) (some v) := by
      simp only [nodeMap_short, KeyMap.update_under, ← nodeMap_value_of_leaf leaf]
    have canonical : Canonical (.short nkey (.value v) t.newFlag) :=
      ⟨terminatedKey.ne_nil, trivial, trivial⟩
    cases dirty with
    | false =>
      cases clean rfl
      refine ⟨false, _, rfl, ?_⟩
      exact ⟨mapEq, .inr ⟨terminatedKey, v, rfl⟩, fun _ => canonical, rfl, id, fun _ => rfl,
        fun _ _ => id⟩
    | true =>
      refine ⟨true, _, rfl, ?_⟩
      exact ⟨mapEq, .inr ⟨terminatedKey, v, rfl⟩, fun _ => canonical, rfl, fun solid => absurd solid id,
        fun stale => absurd stale (by simp), fun _ _ _ => cachesBy_short_fresh rfl trivial⟩

theorem nodeMap_update_children (children : Fin 17 → Node) (k : Fin 17) (n : Node) :
    (fun i => nodeMap (Function.update children k n i)) =
      Function.update (fun i => nodeMap (children i)) k (nodeMap n) :=
  Function.comp_update nodeMap children k n

/-- `insert` where the key parts from a short node's key. -/
theorem insert_short_split {nkey : List Nibble} {val : Node} {flags : NodeFlag}
    (keyed : Keyed (.short nkey val flags)) {key : List Nibble} (terminated : Terminated key)
    (outside : ¬ nkey <+: key) (path : List Nibble) (v : Bytes) :
    ∃ n', t.insert (.short nkey val flags) path key (.value v) = .ok (true, n') ∧
      Inserted (.short nkey val flags) key v true n' := by
  obtain ⟨k, rest, rfl⟩ := List.exists_cons_of_ne_nil terminated.ne_nil
  have parted : prefixLen (k :: rest) nkey ≠ nkey.length :=
    fun whole => outside ((prefixLen_eq_length_iff _ _).mp whole)
  have oldIn : prefixLen (k :: rest) nkey < nkey.length :=
    lt_of_le_of_ne (prefixLen_le_right _ _) parted
  -- the key goes on past the common part: a terminated key is no prefix of a short node's key
  have newIn : prefixLen (k :: rest) nkey < (k :: rest).length := by
    apply lt_of_le_of_ne (prefixLen_le_left _ _)
    intro whole
    have agree := take_prefixLen (k :: rest) nkey
    rw [whole, List.take_length] at agree
    have pre : (k :: rest) <+: nkey := List.prefix_iff_eq_take.mpr agree
    rcases keyed with ⟨digits, -⟩ | ⟨terminatedKey, -, -⟩
    · exact terminated.not_prefix_digits digits pre
    · exact outside (terminated.eq_of_isPrefix terminatedKey pre ▸ List.prefix_refl _)
  have differ := getElem_prefixLen_ne (k :: rest) nkey newIn oldIn
  have agree := take_prefixLen (k :: rest) nkey
  rw [Trie.insert]
  simp only [if_neg parted, List.getElem?_eq_getElem oldIn, List.getElem?_eq_getElem newIn,
    insert_nil]
  generalize prefixLen (k :: rest) nkey = m at parted oldIn newIn differ agree ⊢
  let oldChild := shortOrSelf t (nkey.drop (m + 1)) val
  let newChild := shortOrSelf t ((k :: rest).drop (m + 1)) (.value v)
  let branch : Node := .full (Function.update (Function.update (fun _ => Node.nil) nkey[m] oldChild)
    (k :: rest)[m] newChild) t.newFlag
  refine ⟨shortOrSelf t ((k :: rest).take m) branch, by cases m <;> rfl, ?_, ?_, ?_, ?_, ?_, ?_, ?_⟩
  · simp only [nodeMap_shortOrSelf, nodeMap_short, branch, nodeMap_full,
      KeyMap.update_under_parted oldIn newIn agree.symm (Ne.symm differ), nodeMap_update_children]
    simp [oldChild, newChild, KeyMap.under_single]
  · have oldSlot : Slot nkey[m] oldChild := by
      rcases keyed with ⟨digits, keyedVal⟩ | ⟨terminatedKey, w, rfl⟩
      · have digit : nkey[m] ≠ terminator := digits _ (List.getElem_mem oldIn)
        simpa [Slot, digit] using keyed_shortOrSelf_digits (t := t) (digits.drop (m + 1)) keyedVal
      · exact slot_shortOrSelf_terminated terminatedKey oldIn w
    have keyedBranch : Keyed branch := (keyed_full_iff _ _).mpr
      (forall_update (forall_update slot_nil oldSlot) (slot_shortOrSelf_terminated terminated newIn v))
    exact keyed_shortOrSelf_digits (terminated.digits_take newIn) keyedBranch
  · rintro ⟨-, solid, canonicalVal⟩
    have liveVal : val.isNil = false := by cases val <;> simp_all [Solid, Node.isNil]
    have two : TwoLive (Function.update (Function.update (fun _ => Node.nil) nkey[m] oldChild)
        (k :: rest)[m] newChild) :=
      ⟨nkey[m], (k :: rest)[m], Ne.symm differ,
        by simpa [Function.update_of_ne (Ne.symm differ)] using live_shortOrSelf _ liveVal,
        by simpa using live_shortOrSelf _ rfl⟩
    have solidValue : Solid (.value v) := trivial
    have children := forall_update_update (P := Canonical) (a := nkey[m]) (b := (k :: rest)[m]) trivial
      (canonical_shortOrSelf (t := t) (nkey.drop (m + 1)) solid canonicalVal)
      (canonical_shortOrSelf (t := t) ((k :: rest).drop (m + 1)) solidValue trivial)
    exact canonical_shortOrSelf _ trivial ⟨two, children⟩
  · exact live_shortOrSelf _ rfl
  · exact fun solid => absurd solid id
  · exact fun stale => absurd stale (by simp)
  · -- the branch and the short node above it are new; below them are `val` and the value
    intro ok top caches
    have children := forall_update_update (P := CachesBy ok false) (a := nkey[m]) (b := (k :: rest)[m])
      trivial
      (cachesBy_shortOrSelf (t := t) (nkey.drop (m + 1)) caches.2 caches.2)
      (cachesBy_shortOrSelf (t := t) (n := .value v) ((k :: rest).drop (m + 1)) trivial trivial)
    exact cachesBy_shortOrSelf _ (cachesBy_full_fresh rfl children) (cachesBy_full_fresh rfl children)

/-- A full node with what `insert` left below one of its children. -/
theorem Inserted.full {children : Fin 17 → Node} {flags : NodeFlag} (keyed : Keyed (.full children flags))
    {k : Nibble} {rest : List Nibble} {v : Bytes} {dirty : Bool} {nn : Node}
    (mapEq : nodeMap nn = Function.update (nodeMap (children k)) rest (some v)) (slot : Slot k nn)
    (canonical : Canonical (children k) → Canonical nn) (live : nn.isNil = false)
    (clean : dirty = false → nn = children k)
    (caches : ∀ ok, CachesBy ok false (children k) → CachesBy ok false nn) (flags' : NodeFlag)
    (fresh : flags'.hash = none) :
    Inserted (.full children flags) (k :: rest) v dirty
      (if !dirty then .full children flags else .full (Function.update children k nn) flags') := by
  have updated : Inserted (.full children flags) (k :: rest) v true
      (.full (Function.update children k nn) flags') := by
    refine ⟨?_, (keyed_full_iff _ _).mpr (forall_update ((keyed_full_iff _ _).mp keyed) slot), ?_, rfl,
      fun _ => trivial, fun stale => absurd stale (by simp), fun ok top cachesFull =>
        cachesBy_full_fresh fresh (forall_update cachesFull.2 (caches ok (cachesFull.2 k)))⟩
    · simp [nodeMap_update_children, KeyMap.update_branch, mapEq]
    · rintro ⟨two, children⟩
      exact ⟨two.update live, forall_update (P := fun _ => Canonical) children (canonical (children k))⟩
  cases dirty with
  | false =>
    rw [clean rfl, Function.update_eq_self] at updated
    exact ⟨updated.map_eq, updated.keyed, updated.canonical, updated.live, updated.solid, fun _ => rfl,
      fun _ _ => id⟩
  | true => exact updated

/-- `insert` into a keyed node succeeds and sets the key in its map. -/
theorem insert_inserted {n : Node} (keyed : Keyed n) {key : List Nibble}
    (terminated : Terminated key) (path : List Nibble) (v : Bytes) :
    ∃ dirty n', t.insert n path key (.value v) = .ok (dirty, n') ∧ Inserted n key v dirty n' := by
  induction n generalizing path key with
  | nil =>
    have solidValue : Solid (.value v) := trivial
    refine ⟨true, _, insert_nil path key _, ?_, keyed_shortOrSelf_terminated terminated v,
      fun _ => canonical_shortOrSelf key solidValue trivial, live_shortOrSelf key rfl,
      fun solid => absurd solid id, fun stale => absurd stale (by simp),
      fun _ _ _ => cachesBy_shortOrSelf (n := .value v) key trivial trivial⟩
    rw [nodeMap_shortOrSelf, nodeMap_value, KeyMap.under_single, List.append_nil]
    rfl
  | value w => exact absurd keyed id
  | hash h => exact absurd keyed id
  | short nkey val flags inductionHypothesis =>
    by_cases pre : nkey <+: key
    · exact insert_short_below keyed terminated pre path v
        (fun keyedVal path rest terminatedRest => inductionHypothesis keyedVal terminatedRest path)
    · obtain ⟨n', inserted, spec⟩ := insert_short_split keyed terminated pre path v
      exact ⟨true, n', inserted, spec⟩
  | full children flags inductionHypothesis =>
    obtain ⟨k, rest, rfl⟩ := List.exists_cons_of_ne_nil terminated.ne_nil
    -- the child below the key's first nibble takes the rest of the key
    obtain ⟨dirty, nn, inserted, mapEq, slot, canonical, live, clean, caches⟩ : ∃ dirty nn,
        t.insert (children k) (path ++ [k]) rest (.value v) = .ok (dirty, nn) ∧
        nodeMap nn = Function.update (nodeMap (children k)) rest (some v) ∧ Slot k nn ∧
        (Canonical (children k) → Canonical nn) ∧ nn.isNil = false ∧
        (dirty = false → nn = children k) ∧
        ∀ ok, CachesBy ok false (children k) → CachesBy ok false nn := by
      by_cases slot : k = terminator
      · subst slot
        rw [terminated.eq_nil_of_terminator]
        obtain ⟨dirty, inserted, clean⟩ := insert_leaf keyed.2 (path ++ [terminator]) v
        exact ⟨dirty, _, inserted, nodeMap_value_of_leaf keyed.2 v, by simp [Slot, Leaf],
          fun _ => trivial, rfl, fun stale => (clean stale).symm, fun _ _ => trivial⟩
      · obtain ⟨dirty, nn, inserted, spec⟩ :=
          inductionHypothesis k (keyed.1 k slot) (terminated.tail slot) (path ++ [k])
        exact ⟨dirty, nn, inserted, spec.map_eq, by simpa [Slot, slot] using spec.keyed,
          spec.canonical, spec.live, spec.clean, fun ok => spec.caches ok false⟩
    rw [Trie.insert, inserted]
    exact ⟨dirty, _, by cases dirty <;> rfl,
      Inserted.full keyed mapEq slot canonical live clean caches _ rfl⟩

end Insert

/-- What `delete` of a terminated key leaves of a keyed node. -/
structure Deleted (n : Node) (key : List Nibble) (dirty : Bool) (n' : Node) : Prop where
  map_eq : nodeMap n' = Function.update (nodeMap n) key none
  keyed : Keyed n'
  canonical : Canonical n → Canonical n'
  live : Canonical n → Solid n → n'.isNil = false
  clean : dirty = false → n' = n
  caches : ∀ ok top, CachesBy ok top n → CachesBy ok top n'

section Delete

variable {t}

/-- At the end of the key, `delete` leaves nothing of the leaf. -/
theorem delete_leaf {n : Node} (leaf : Leaf n) (path : List Nibble) :
    ∃ dirty, t.delete n path [] = .ok (dirty, .nil) ∧ (dirty = false → n = .nil) := by
  cases n with
  | nil => exact ⟨false, by simp [Trie.delete], fun _ => rfl⟩
  | value w => exact ⟨true, by simp [Trie.delete], fun stale => absurd stale (by simp)⟩
  | _ => exact absurd leaf id

theorem nodeMap_nil_of_leaf {n : Node} (leaf : Leaf n) :
    nodeMap .nil = Function.update (nodeMap n) [] none := by
  cases n with
  | nil => exact (Function.update_eq_self _ _).symm
  | value w => simp
  | _ => exact absurd leaf id

/-- `delete` at a short node. -/
theorem delete_short {nkey : List Nibble} {val : Node} {flags : NodeFlag}
    (keyed : Keyed (.short nkey val flags)) {key : List Nibble} (terminated : Terminated key)
    (path : List Nibble)
    (below : Keyed val → ∀ path rest, Terminated rest →
      ∃ dirty child, t.delete val path rest = .ok (dirty, child) ∧ Deleted val rest dirty child) :
    ∃ dirty n', t.delete (.short nkey val flags) path key = .ok (dirty, n') ∧
      Deleted (.short nkey val flags) key dirty n' := by
  by_cases pre : nkey <+: key
  · have whole : prefixLen key nkey = nkey.length := (prefixLen_eq_length_iff _ _).mpr pre
    obtain ⟨suffix, rfl⟩ := pre
    rcases keyed with ⟨digits, keyedVal⟩ | ⟨terminatedKey, w, rfl⟩
    · have goesOn : nkey.length ≠ (nkey ++ suffix).length := by
        intro same
        have ended : suffix = [] := by simpa using same
        subst ended
        exact terminated.not_prefix_digits (by simpa using digits) (List.prefix_refl _)
      obtain ⟨dirty, child, deleted, spec⟩ :=
        below keyedVal (path ++ nkey) suffix (terminated.drop_digits digits)
      rw [Trie.delete]
      simp only [whole, lt_irrefl, if_false, if_neg goesOn, List.take_left, List.drop_left, deleted]
      cases dirty with
      | false =>
        rw [spec.clean rfl] at spec
        refine ⟨false, _, rfl, ⟨?_, .inl ⟨digits, keyedVal⟩, id, fun _ solid => absurd solid id,
          fun _ => rfl, fun _ _ => id⟩⟩
        simp [KeyMap.update_under, ← spec.map_eq]
      | true =>
        simp only [Bool.not_true, Bool.false_eq_true, if_false]
        split
        · rename_i ckey cval cflags
          have childMap := spec.map_eq
          simp only [nodeMap_short] at childMap
          refine ⟨true, _, rfl, ⟨?_, ?_, ?_, fun _ solid => absurd solid id,
            fun stale => absurd stale (by simp),
            fun ok top caches => cachesBy_short_fresh rfl (spec.caches ok false caches.2).2⟩⟩
          · simp [KeyMap.under_append, childMap, KeyMap.update_under]
          · rcases spec.keyed with ⟨digitsChild, keyedChild⟩ | ⟨terminatedChild, v, rfl⟩
            · exact .inl ⟨digits_append.mpr ⟨digits, digitsChild⟩, keyedChild⟩
            · exact .inr ⟨terminatedChild.append_digits digits, v, rfl⟩
          · rintro ⟨nonempty, solid, canonical⟩
            obtain ⟨-, solidChild, canonicalChild⟩ := spec.canonical canonical
            exact ⟨by simp [nonempty], solidChild, canonicalChild⟩
        · rename_i notShort
          refine ⟨true, _, rfl, ⟨?_, .inl ⟨digits, spec.keyed⟩, ?_, fun _ solid => absurd solid id,
            fun stale => absurd stale (by simp),
            fun ok top caches => cachesBy_short_fresh rfl (spec.caches ok false caches.2)⟩⟩
          · simp [spec.map_eq, KeyMap.update_under]
          · rintro ⟨nonempty, solid, canonical⟩
            exact ⟨nonempty, solid_of_live (spec.live canonical solid) notShort,
              spec.canonical canonical⟩
    · -- a terminated short key is the whole key, and the short node goes
      have ended : suffix = [] := by
        simpa using (terminatedKey.eq_of_isPrefix terminated (List.prefix_append nkey suffix)).symm
      subst ended
      simp only [List.append_nil] at whole ⊢
      rw [Trie.delete]
      simp only [whole, lt_irrefl, if_false, if_true]
      refine ⟨true, .nil, rfl, ⟨?_, trivial, fun _ => trivial, fun _ solid => absurd solid id,
        fun stale => absurd stale (by simp), fun _ _ _ => trivial⟩⟩
      simp [KeyMap.under_single]
  · have short : prefixLen key nkey < nkey.length :=
      lt_of_le_of_ne (prefixLen_le_right _ _) fun eq => pre ((prefixLen_eq_length_iff _ _).mp eq)
    rw [Trie.delete]
    simp only [short, if_true]
    exact ⟨false, _, rfl, ⟨(KeyMap.update_under_outside _ pre).symm, keyed, id,
      fun _ solid => absurd solid id, fun _ => rfl, fun _ _ => id⟩⟩

/-- The nibble that `delete` reads back from the position of the only child left. -/
theorem ofNat_toNat_val (i : Nibble) : (Fin.ofNat 17 ((i.val : Int).toNat) : Nibble) = i := by
  apply Fin.ext
  simp

theorem pos_ne_terminator_iff (i : Nibble) : (i.val : Int) ≠ 16 ↔ i ≠ terminator := by
  constructor
  · rintro differ rfl
    exact differ rfl
  · intro differ same
    exact differ (Fin.ext (by simp only [terminator]; omega))

/-- `delete` at a full node. -/
theorem delete_full {children : Fin 17 → Node} {flags : NodeFlag}
    (keyed : Keyed (.full children flags)) {key : List Nibble} (terminated : Terminated key)
    (path : List Nibble)
    (below : ∀ i, i ≠ terminator → Keyed (children i) → ∀ path rest, Terminated rest →
      ∃ dirty nn, t.delete (children i) path rest = .ok (dirty, nn) ∧
        Deleted (children i) rest dirty nn) :
    ∃ dirty n', t.delete (.full children flags) path key = .ok (dirty, n') ∧
      Deleted (.full children flags) key dirty n' := by
  obtain ⟨k, rest, rfl⟩ := List.exists_cons_of_ne_nil terminated.ne_nil
  -- the child below the key's first nibble loses the rest of the key
  obtain ⟨dirty, nn, deleted, mapEq, slot, canonical, clean, caches⟩ : ∃ dirty nn,
      t.delete (children k) (path ++ [k]) rest = .ok (dirty, nn) ∧
      nodeMap nn = Function.update (nodeMap (children k)) rest none ∧ Slot k nn ∧
      (Canonical (children k) → Canonical nn) ∧ (dirty = false → nn = children k) ∧
      ∀ ok, CachesBy ok false (children k) → CachesBy ok false nn := by
    by_cases slot : k = terminator
    · subst slot
      rw [terminated.eq_nil_of_terminator]
      obtain ⟨dirty, deleted, clean⟩ := delete_leaf keyed.2 (path ++ [terminator])
      exact ⟨dirty, _, deleted, nodeMap_nil_of_leaf keyed.2, slot_nil _, fun _ => trivial,
        fun stale => (clean stale).symm, fun _ _ => trivial⟩
    · obtain ⟨dirty, nn, deleted, spec⟩ :=
        below k slot (keyed.1 k slot) (path ++ [k]) rest (terminated.tail slot)
      exact ⟨dirty, nn, deleted, spec.map_eq, by simpa [Slot, slot] using spec.keyed,
        spec.canonical, spec.clean, fun ok => spec.caches ok false⟩
  have slots := forall_update ((keyed_full_iff _ _).mp keyed) slot
  have mapFull : ∀ flags', nodeMap (.full (Function.update children k nn) flags') =
      Function.update (nodeMap (.full children flags)) (k :: rest) none := by
    intro flags'
    simp [nodeMap_update_children, KeyMap.update_branch, mapEq]
  have canonicalChildren : Canonical (.full children flags) →
      ∀ i, Canonical (Function.update children k nn i) := fun ⟨_, all⟩ =>
    forall_update (P := fun _ => Canonical) all (canonical (all k))
  have cachesChildren : ∀ ok top, CachesBy ok top (.full children flags) →
      ∀ i, CachesBy ok false (Function.update children k nn i) := fun ok _ cachesFull =>
    forall_update cachesFull.2 (caches ok (cachesFull.2 k))
  rw [Trie.delete]
  cases dirty with
  | false =>
    rw [clean rfl, Function.update_eq_self] at mapFull
    simp only [deleted, Bool.not_false, if_true]
    exact ⟨false, _, rfl, ⟨mapFull flags, keyed, id, fun _ _ => rfl, fun _ => rfl, fun _ _ => id⟩⟩
  | true =>
    simp only [deleted, Bool.not_true, Bool.false_eq_true, if_false]
    have dead : ∀ {n'}, true = false → n' = Node.full children flags := fun stale => absurd stale (by simp)
    generalize updated : Function.update children k nn = children' at *
    rcases twoLive_or_single_or_none children' with two | ⟨i, live, others⟩ | none
    · rw [remainingPos_of_two two]
      exact ⟨true, _, rfl, ⟨mapFull _, (keyed_full_iff _ _).mpr slots,
        fun canonical => ⟨two, canonicalChildren canonical⟩, fun _ _ => rfl, dead,
        fun ok top cachesFull => cachesBy_full_fresh rfl (cachesChildren ok top cachesFull)⟩⟩
    · -- one child left: a short node above it
      have mapShort : nodeMap (.short [i] (children' i) t.newFlag) =
          Function.update (nodeMap (.full children flags)) (k :: rest) none := by
        rw [← mapFull t.newFlag, nodeMap_full_single others]
        rfl
      rw [remainingPos_of_unique live others, if_pos (by omega), ofNat_toNat_val]
      by_cases slotI : i = terminator
      · subst slotI
        have leaf : Leaf (children' terminator) := by simpa [Slot] using slots terminator
        have notShort : ∀ key val flags, children' terminator ≠ .short key val flags := by
          intro key val flags same
          rw [same] at leaf
          exact leaf
        rw [if_neg (by decide)]
        refine ⟨true, _, rfl, ⟨mapShort, leaf.keyed_short_terminator live _, ?_, fun _ _ => rfl, dead,
          fun ok top cachesFull => cachesBy_short_fresh rfl (cachesChildren ok top cachesFull _)⟩⟩
        intro canonical
        exact ⟨List.cons_ne_nil _ _, solid_of_live live notShort, canonicalChildren canonical terminator⟩
      · have keyedChild : Keyed (children' i) := by simpa [Slot, slotI] using slots i
        have canonicalChild := fun canonical => canonicalChildren canonical i
        have cachesChild := fun ok top cachesFull => cachesChildren ok top cachesFull i
        rw [if_pos ((pos_ne_terminator_iff i).mpr slotI), resolve_keyed t keyedChild path]
        generalize children' i = child at keyedChild canonicalChild cachesChild live mapShort ⊢
        cases child with
        | short ckey cval cflags =>
          refine ⟨true, _, rfl, ⟨?_, ?_, ?_, fun _ _ => rfl, dead,
            fun ok top cachesFull => cachesBy_short_fresh rfl (cachesChild ok top cachesFull).2⟩⟩
          · rw [← mapShort]
            simp only [nodeMap_short]
            exact KeyMap.under_append [i] ckey _
          · rcases keyedChild with ⟨digits, keyedVal⟩ | ⟨terminatedChild, v, rfl⟩
            · exact .inl ⟨digits_cons.mpr ⟨slotI, digits⟩, keyedVal⟩
            · exact .inr ⟨terminatedChild.append_digits (digits_cons.mpr ⟨slotI, digits_nil⟩), v, rfl⟩
          · intro canonical
            obtain ⟨-, solid, canonicalVal⟩ := canonicalChild canonical
            exact ⟨List.cons_ne_nil _ _, solid, canonicalVal⟩
        | _ =>
          refine ⟨true, _, rfl, ⟨mapShort, .inl ⟨digits_cons.mpr ⟨slotI, digits_nil⟩, keyedChild⟩,
            fun canonical => ⟨List.cons_ne_nil _ _, solid_of_live live (by intro _ _ _ same; cases same),
              canonicalChild canonical⟩, fun _ _ => rfl, dead,
            fun ok top cachesFull => cachesBy_short_fresh rfl (cachesChild ok top cachesFull)⟩⟩
    · -- no child left: only a node that was not canonical comes to this
      rw [remainingPos_of_none none]
      refine ⟨true, _, rfl, ⟨mapFull _, (keyed_full_iff _ _).mpr slots, ?_, fun _ _ => rfl, dead,
        fun ok top cachesFull => cachesBy_full_fresh rfl (cachesChildren ok top cachesFull)⟩⟩
      intro canonical
      obtain ⟨i, live⟩ := canonical.1.exists_live_update (k := k) nn
      rw [updated, none i] at live
      cases live

/-- `delete` from a keyed node succeeds and removes the key from its map. -/
theorem delete_deleted {n : Node} (keyed : Keyed n) {key : List Nibble}
    (terminated : Terminated key) (path : List Nibble) :
    ∃ dirty n', t.delete n path key = .ok (dirty, n') ∧ Deleted n key dirty n' := by
  induction n generalizing path key with
  | nil =>
    exact ⟨false, .nil, by simp [Trie.delete], ⟨(Function.update_eq_self _ _).symm, trivial, id,
      fun _ solid => absurd solid id, fun _ => rfl, fun _ _ => id⟩⟩
  | value w => exact absurd keyed id
  | hash h => exact absurd keyed id
  | short nkey val flags inductionHypothesis =>
    exact delete_short keyed terminated path
      (fun keyedVal path rest terminatedRest => inductionHypothesis keyedVal terminatedRest path)
  | full children flags inductionHypothesis =>
    exact delete_full keyed terminated path
      (fun i _ keyedChild path rest terminatedRest => inductionHypothesis i keyedChild terminatedRest path)

end Delete

end Tangerine.Proof.TrieUpdate
