import Tangerine.Proof.Rlp.Split
import Tangerine.Proof.Trie.Runs

/-! Reading back what the hasher stores (`decodeNode` of `trie/node.go`). -/

namespace Tangerine.Proof.TrieDecode

open Tangerine.Common Tangerine.Trie Tangerine.Rlp Tangerine.Proof.RlpSplit
  Tangerine.Proof.TrieKeys Tangerine.Proof.TrieShape Tangerine.Proof.TrieHashing
  Tangerine.Proof.TrieRuns

/-- How `fullNode.EncodeRLP` writes a child: a missing one as the empty string. -/
def childEncoding (r : RawNode) : Bytes :=
  match r with
  | .nil => stringEncoding []
  | _ => r.encode

theorem encode_full (children : Fin 17 → RawNode) :
    (RawNode.full children).encode =
      listEncoding ((List.finRange 17).flatMap fun i => childEncoding (children i)) := by
  rfl

theorem encode_short (key : Bytes) (val : RawNode) :
    (RawNode.short key val).encode = listEncoding (stringEncoding key ++ val.encode) := rfl

theorem childEncoding_of_ne_nil {r : RawNode} (live : r ≠ .nil) : childEncoding r = r.encode := by
  cases r <;> simp_all [childEncoding]

/-- A reference as `decodeRef` reads it back: a hash of 32 bytes, or a small node embedded whole. -/
def RefForm (stored : Prop) : RawNode → Prop
  | .hash h => h.length = hashLen
  | .short key val => (RawNode.short key val).encode.length ≤ hashLen ∧ stored
  | .full children => (RawNode.full children).encode.length ≤ hashLen ∧ stored
  | .value _ | .nil => False

theorem RefForm.imp {P Q : Prop} (f : P → Q) {r : RawNode} (ref : RefForm P r) : RefForm Q r := by
  cases r with
  | hash h => exact ref
  | short key val => exact ⟨ref.1, f ref.2⟩
  | full children => exact ⟨ref.1, f ref.2⟩
  | value v => exact ref.elim
  | nil => exact ref.elim

/-- A stored node that `decodeNode` reads back. -/
def Stored : RawNode → Prop
  | .short key val =>
    match hasTerm (compactToHex key) with
    | true => ∃ v, val = .value v
    | false => RefForm (Stored val) val
  | .full children =>
    (∀ i : Fin 17, i.val < 16 → children i = .nil ∨ RefForm (Stored (children i)) (children i)) ∧
      (children terminator = .nil ∨ ∃ v, v ≠ [] ∧ children terminator = .value v)
  | .hash _ | .value _ | .nil => False

/-- The encoding of a node, followed by anything, decodes to the node expanded, under any hash. -/
def DecodesBack (gen : UInt16) (r : RawNode) : Prop :=
  ∀ hash trailing, decodeNode hash (r.encode ++ trailing) gen = .ok (expandNode hash r gen)

section Values

/-- Every node's encoding is one RLP value. -/
theorem split_encode (r : RawNode) (bound : r.encode.length < 2 ^ 64) (rest : Bytes) :
    ∃ k content, split (r.encode ++ rest) = .ok (k, content, rest) := by
  cases r with
  | full children =>
    rw [encode_full] at *
    exact ⟨_, _, split_listEncoding (lt_trans (length_lt_listEncoding _) bound) rest⟩
  | short key val =>
    rw [encode_short] at *
    exact ⟨_, _, split_listEncoding (lt_trans (length_lt_listEncoding _) bound) rest⟩
  | hash h => exact ⟨_, _, split_stringEncoding (lt_of_le_of_lt (length_le_stringEncoding h) bound) rest⟩
  | value v => exact ⟨_, _, split_stringEncoding (lt_of_le_of_lt (length_le_stringEncoding v) bound) rest⟩
  | nil =>
    have empty : RawNode.nil.encode = listEncoding [] := by decide
    exact ⟨_, _, empty ▸ split_listEncoding (by decide) rest⟩

theorem split_childEncoding (r : RawNode) (bound : (childEncoding r).length < 2 ^ 64)
    (rest : Bytes) : ∃ k content, split (childEncoding r ++ rest) = .ok (k, content, rest) := by
  by_cases live : r = .nil
  · subst live
    exact ⟨_, _, split_stringEncoding (show ([] : Bytes).length < 2 ^ 64 by decide) rest⟩
  · rw [childEncoding_of_ne_nil live] at *
    exact split_encode r bound rest

end Values

section Readback

variable {gen : UInt16}

theorem decodeRef_empty {buf rest : Bytes} (splitted : split buf = .ok (.string, [], rest)) :
    decodeRef buf gen = .ok (.nil, ⟨rest, split_rest_length splitted⟩) := by
  rw [decodeRef]
  split
  · rename_i err failed
    rw [splitted] at failed
    cases failed
  · rename_i kind val rest' read
    rw [splitted] at read
    cases read
    simp

theorem decodeRef_hash {buf digest rest : Bytes} (splitted : split buf = .ok (.string, digest, rest))
    (sized : digest.length = hashLen) :
    decodeRef buf gen = .ok (.hash digest, ⟨rest, split_rest_length splitted⟩) := by
  rw [decodeRef]
  split
  · rename_i err failed
    rw [splitted] at failed
    cases failed
  · rename_i kind val rest' read
    rw [splitted] at read
    cases read
    simp [sized, hashLen]

theorem decodeRef_embedded {buf content rest : Bytes} {n : Node}
    (splitted : split buf = .ok (.list, content, rest)) (small : buf.length - rest.length ≤ hashLen)
    (decoded : decodeNode none buf gen = .ok n) :
    decodeRef buf gen = .ok (n, ⟨rest, split_rest_length splitted⟩) := by
  rw [decodeRef]
  split
  · rename_i err failed
    rw [splitted] at failed
    cases failed
  · rename_i kind val rest' read
    rw [splitted] at read
    cases read
    simp [Nat.not_lt.mpr small, decoded]

theorem decodeRefs_succ {count : Nat} {elems : Bytes} {cld : Node}
    {rest : {rest : Bytes // rest.length < elems.length}} (ref : decodeRef elems gen = .ok (cld, rest)) :
    decodeRefs gen (count + 1) elems =
      (decodeRefs gen count rest.val).map fun (children, rest) => (cld :: children, rest) := by
  rw [decodeRefs, ref]
  simp only
  split <;> simp_all [Except.map]

theorem decodeShort_value {hash : Option Bytes} {elems kbuf rest val rest' : Bytes}
    (keyed : splitString elems = .ok (kbuf, rest)) (term : hasTerm (compactToHex kbuf) = true)
    (valued : splitString rest = .ok (val, rest')) :
    decodeShort hash elems gen = .ok (.short (compactToHex kbuf) (.value val) ⟨hash, gen, false⟩) := by
  rw [decodeShort]
  split
  · rename_i err failed
    rw [keyed] at failed
    cases failed
  · rename_i kbuf' rest'' read
    rw [keyed] at read
    cases read
    simp [term, valued]

theorem decodeShort_ref {hash : Option Bytes} {elems kbuf rest : Bytes} {r : Node}
    {rest' : {rest' : Bytes // rest'.length < rest.length}}
    (keyed : splitString elems = .ok (kbuf, rest)) (term : hasTerm (compactToHex kbuf) = false)
    (ref : decodeRef rest gen = .ok (r, rest')) :
    decodeShort hash elems gen = .ok (.short (compactToHex kbuf) r ⟨hash, gen, false⟩) := by
  rw [decodeShort]
  split
  · rename_i err failed
    rw [keyed] at failed
    cases failed
  · rename_i kbuf' rest'' read
    rw [keyed] at read
    cases read
    simp [term, ref]

theorem decodeFull_of_refs {hash : Option Bytes} {elems rest val rest' : Bytes}
    {children : List Node} (refs : decodeRefs gen 16 elems = .ok (children, rest))
    (valued : splitString rest = .ok (val, rest')) :
    decodeFull hash elems gen = .ok (.full (fun i => if i.val < 16 then children.getD i.val .nil
      else if val ≠ [] then .value val else .nil) ⟨hash, gen, false⟩) := by
  rw [decodeFull]
  simp [refs, valued, bind, Except.bind]

theorem decodeNode_of_splitList {hash : Option Bytes} {buf elems rest : Bytes}
    (listed : splitList buf = .ok (elems, rest)) :
    decodeNode hash buf gen = match (match countValues elems with | .ok c => c | .error _ => 0) with
      | 2 => (decodeShort hash elems gen).mapError (wrapError · "short")
      | 17 => (decodeFull hash elems gen).mapError (wrapError · "full")
      | c => .error (.plain (.invalidListElements c)) := by
  have nonempty : buf ≠ [] := by
    rintro rfl
    simp [splitList, split, readKind, bind, Except.bind] at listed
  rw [decodeNode, if_neg nonempty]
  split
  · rename_i err failed
    rw [listed] at failed
    cases failed
  · rename_i elems' rest' read
    rw [listed] at read
    cases read
    rfl

end Readback

section Lists

theorem length_le_flatMap {ι : Type} {items : List ι} {i : ι} (mem : i ∈ items) (f : ι → Bytes) :
    (f i).length ≤ (items.flatMap f).length := by
  have sub := (List.singleton_sublist.mpr mem).flatMap f
  rw [List.flatMap_singleton] at sub
  exact sub.length_le

/-- A full node writes its children below the sixteen nibbles, then its value slot. -/
theorem flatMap_finRange_children (children : Fin 17 → RawNode) :
    (List.finRange 17).flatMap (fun i => childEncoding (children i)) =
      ((List.finRange 16).map fun i => children i.castSucc).flatMap childEncoding ++
        childEncoding (children 16) := by
  rw [List.finRange_succ_last, List.flatMap_append, List.flatMap_map, List.flatMap_map,
    List.flatMap_singleton]
  rfl

theorem getD_expand_children (gen : UInt16) (children : Fin 17 → RawNode) {i : Fin 17}
    (below : i.val < 16) :
    (((List.finRange 16).map fun j => children j.castSucc).map (expandNode none · gen)).getD i.val
      .nil = expandNode none (children i) gen := by
  have same : (⟨i.val, below⟩ : Fin 16).castSucc = i := Fin.ext rfl
  simp [below, same]

end Lists

section RoundTrip

variable {gen : UInt16}

/-- A reference read back: `decodeRef` gives the node it refers to, expanded, and what follows. -/
theorem decodeRef_encode {c : RawNode} (ref : RefForm (DecodesBack gen c) c)
    (bound : c.encode.length < 2 ^ 64) {buf trailing : Bytes} (framed : buf = c.encode ++ trailing) :
    ∃ rest, decodeRef buf gen = .ok (expandNode none c gen, rest) ∧ rest.val = trailing := by
  subst framed
  -- an embedded node is one list, which `decodeRef` hands to `decodeNode` whole
  have embedded : ∀ {content : Bytes}, split (c.encode ++ trailing) = .ok (.list, content, trailing) →
      c.encode.length ≤ hashLen → DecodesBack gen c →
      ∃ rest, decodeRef (c.encode ++ trailing) gen = .ok (expandNode none c gen, rest) ∧
        rest.val = trailing := by
    intro content splitted small decodes
    refine ⟨_, decodeRef_embedded splitted (by simpa using small) (decodes none trailing), rfl⟩
  cases c with
  | hash digest =>
    have sized : digest.length = hashLen := ref
    have splitted :=
      split_stringEncoding (lt_of_le_of_lt (length_le_stringEncoding digest) bound) trailing
    rw [stringKind_of_length_ne_one (by simp [sized, hashLen])] at splitted
    exact ⟨_, decodeRef_hash splitted sized, rfl⟩
  | short key val =>
    rw [encode_short] at bound
    exact embedded (split_listEncoding (lt_trans (length_lt_listEncoding _) bound) trailing) ref.1 ref.2
  | full children =>
    rw [encode_full] at bound
    exact embedded (split_listEncoding (lt_trans (length_lt_listEncoding _) bound) trailing) ref.1 ref.2
  | value v => exact ref.elim
  | nil => exact ref.elim

/-- A child of a full node read back, a missing one included. -/
theorem decodeRef_childEncoding {c : RawNode} (ref : c = .nil ∨ RefForm (DecodesBack gen c) c)
    (bound : (childEncoding c).length < 2 ^ 64) (trailing : Bytes) :
    ∃ rest, decodeRef (childEncoding c ++ trailing) gen = .ok (expandNode none c gen, rest) ∧
      rest.val = trailing := by
  rcases ref with rfl | ref
  · have splitted := split_stringEncoding (show ([] : Bytes).length < 2 ^ 64 by decide) trailing
    exact ⟨_, decodeRef_empty splitted, rfl⟩
  · have live : c ≠ .nil := by
      rintro rfl
      exact ref
    rw [childEncoding_of_ne_nil live] at bound ⊢
    exact decodeRef_encode ref bound rfl

/-- The loop of `decodeFull` reads back the children written one after the other. -/
theorem decodeRefs_flatMap (cs : List RawNode)
    (refs : ∀ c ∈ cs, ∀ trailing, ∃ rest,
      decodeRef (childEncoding c ++ trailing) gen = .ok (expandNode none c gen, rest) ∧
        rest.val = trailing)
    (rest : Bytes) :
    decodeRefs gen cs.length (cs.flatMap childEncoding ++ rest) =
      .ok (cs.map (expandNode none · gen), rest) := by
  induction cs with
  | nil => rw [List.length_nil, decodeRefs]; rfl
  | cons c cs inductionHypothesis =>
    obtain ⟨rest', ref, restEq⟩ := refs c (by simp) (cs.flatMap childEncoding ++ rest)
    rw [List.flatMap_cons, List.append_assoc, List.length_cons, decodeRefs_succ ref, restEq,
      inductionHypothesis fun c' mem => refs c' (by simp [mem])]
    rfl

/-- One step of the round trip: a short node reads back when its child does. -/
theorem decodesBack_short {key : Bytes} {val : RawNode} (stored : Stored (.short key val))
    (bound : (RawNode.short key val).encode.length < 2 ^ 64)
    (below : Stored val → val.encode.length < 2 ^ 64 → DecodesBack gen val) :
    DecodesBack gen (.short key val) := by
  intro hash trailing
  rw [encode_short] at bound ⊢
  have elemsBound := lt_trans (length_lt_listEncoding _) bound
  have keyBound : key.length < 2 ^ 64 := by
    have := length_le_stringEncoding key
    simp only [List.length_append] at elemsBound
    omega
  have valBound : val.encode.length < 2 ^ 64 := by
    simp only [List.length_append] at elemsBound
    omega
  have two : countValues (stringEncoding key ++ val.encode) = .ok 2 := by
    obtain ⟨k, content, valSplit⟩ := split_encode val valBound []
    rw [List.append_nil] at valSplit
    rw [countValues_of_split (split_stringEncoding keyBound _), countValues_of_split valSplit,
      countValues_nil]
    rfl
  have keyed := splitString_stringEncoding keyBound val.encode
  rw [decodeNode_of_splitList (splitList_listEncoding elemsBound trailing), two]
  rw [Stored] at stored
  -- the key's terminator tells a value from a reference
  by_cases term : hasTerm (compactToHex key) = true
  · rw [term] at stored
    obtain ⟨v, rfl⟩ := stored
    have valued := splitString_stringEncoding
      (lt_of_le_of_lt (length_le_stringEncoding v) valBound) []
    rw [List.append_nil] at valued
    rw [decodeShort_value keyed term valued]
    rfl
  · rw [Bool.not_eq_true] at term
    rw [term] at stored
    obtain ⟨rest, ref, -⟩ :=
      decodeRef_encode (RefForm.imp (fun s => below s valBound) stored) valBound (List.append_nil _).symm
    rw [decodeShort_ref keyed term ref]
    rfl

/-- The value slot of a full node read back: nothing, or a value of some bytes. -/
theorem splitString_slot {slot : RawNode} (valued : slot = .nil ∨ ∃ v, v ≠ [] ∧ slot = .value v)
    (bound : (childEncoding slot).length < 2 ^ 64) :
    ∃ val, splitString (childEncoding slot) = .ok (val, []) ∧
      (if val ≠ [] then Node.value val else .nil) = expandNode none slot gen := by
  rcases valued with rfl | ⟨v, nonempty, rfl⟩
  · exact ⟨[], splitString_stringEncoding (show ([] : Bytes).length < 2 ^ 64 by decide) [], rfl⟩
  · have valued := splitString_stringEncoding
      (lt_of_le_of_lt (length_le_stringEncoding v) bound) []
    rw [List.append_nil] at valued
    exact ⟨v, valued, by simp [nonempty, expandNode]⟩

/-- One step of the round trip: a full node reads back when its children do. -/
theorem decodesBack_full {children : Fin 17 → RawNode} (stored : Stored (.full children))
    (bound : (RawNode.full children).encode.length < 2 ^ 64)
    (below : ∀ i, Stored (children i) → (children i).encode.length < 2 ^ 64 →
      DecodesBack gen (children i)) :
    DecodesBack gen (.full children) := by
  intro hash trailing
  rw [encode_full] at bound ⊢
  have elemsBound := lt_trans (length_lt_listEncoding _) bound
  have childBound : ∀ i, (childEncoding (children i)).length < 2 ^ 64 := fun i =>
    lt_of_le_of_lt (length_le_flatMap (List.mem_finRange i) fun i => childEncoding (children i))
      elemsBound
  have seventeen : countValues ((List.finRange 17).flatMap fun i => childEncoding (children i)) =
      .ok 17 := by
    rw [countValues_flatMap _ _ fun i _ rest => split_childEncoding _ (childBound i) rest,
      List.length_finRange]
  -- the sixteen references, each read back by `decodeRef` with the rest after it
  have refs : ∀ c ∈ (List.finRange 16).map (fun i => children i.castSucc), ∀ trailing, ∃ rest,
      decodeRef (childEncoding c ++ trailing) gen = .ok (expandNode none c gen, rest) ∧
        rest.val = trailing := by
    intro c mem trailing
    obtain ⟨j, -, rfl⟩ := List.mem_map.mp mem
    have live := (stored.1 j.castSucc j.isLt).imp_right
      (RefForm.imp fun s => below j.castSucc s (by
        have := childBound j.castSucc
        by_cases missing : children j.castSucc = .nil
        · simp [missing, RawNode.encode]
        · rwa [childEncoding_of_ne_nil missing] at this))
    exact decodeRef_childEncoding live (childBound j.castSucc) trailing
  have decodedRefs := decodeRefs_flatMap _ refs (childEncoding (children 16))
  rw [List.length_map, List.length_finRange] at decodedRefs
  obtain ⟨val, valued, slotEq⟩ := @splitString_slot gen _ stored.2 (childBound terminator)
  rw [decodeNode_of_splitList (splitList_listEncoding elemsBound trailing), seventeen]
  simp only
  rw [flatMap_finRange_children, decodeFull_of_refs decodedRefs valued]
  simp only [Except.mapError, expandNode, Except.ok.injEq, Node.full.injEq, and_true]
  funext i
  -- below a nibble the loop's child, in the value slot what `decodeFull` makes of the value
  by_cases nibble : i.val < 16
  · rw [if_pos nibble, getD_expand_children gen children nibble]
  · have last : i = terminator := by
      have := i.isLt
      exact Fin.ext (show i.val = 16 by omega)
    subst last
    rw [if_neg nibble, slotEq]

/-- Every stored node reads back, by induction on the node, one step per kind of node. -/
theorem decodesBack_of_stored (gen : UInt16) {r : RawNode} (stored : Stored r)
    (bound : r.encode.length < 2 ^ 64) : DecodesBack gen r := by
  induction r with
  | full children inductionHypothesis => exact decodesBack_full stored bound inductionHypothesis
  | short key val inductionHypothesis => exact decodesBack_short stored bound inductionHypothesis
  | hash _ | value _ | nil => exact stored.elim

/-- `decodeNode` reads every stored node back from its encoding, whatever follows it. -/
theorem decodeNode_encode (gen : UInt16) {r : RawNode} (stored : Stored r)
    (bound : r.encode.length < 2 ^ 64) (hash : Option Bytes) (trailing : Bytes) :
    decodeNode hash (r.encode ++ trailing) gen = .ok (expandNode hash r gen) :=
  decodesBack_of_stored gen stored bound hash trailing

/-- A leaf under the terminator alone, with a value of one byte, read back. -/
theorem decodeNode_encode_leaf :
    Stored (.short [0x20] (.value [5])) ∧ (RawNode.short [0x20] (.value [5])).encode.length < 2 ^ 64 ∧
      decodeNode none ((RawNode.short [0x20] (.value [5])).encode ++ []) 0 =
        .ok (expandNode none (.short [0x20] (.value [5])) 0) := by
  have stored : Stored (.short [0x20] (.value [5])) := by
    have term : hasTerm (compactToHex [0x20]) = true := by decide
    rw [Stored, term]
    exact ⟨[5], rfl⟩
  have bound : (RawNode.short [0x20] (.value [5])).encode.length < 2 ^ 64 := by decide
  exact ⟨stored, bound, decodeNode_encode 0 stored bound none []⟩

end RoundTrip

section Collapse

variable {keccak : Bytes → Bytes}

/-- What a parent holds for a stored node is a reference `decodeRef` reads back. -/
theorem refForm_reference (digest : ∀ data, (keccak data).length = hashLen) {r : RawNode}
    (stored : Stored r) : RefForm (Stored (reference keccak false r)) (reference keccak false r) := by
  have embedded : r.encode.length < 32 → RefForm (Stored r) r := by
    intro small
    cases r with
    | short key val => exact ⟨by simp only [hashLen]; omega, stored⟩
    | full children => exact ⟨by simp only [hashLen]; omega, stored⟩
    | hash _ | value _ | nil => exact stored.elim
  have hashed : RefForm (Stored (.hash (keccak r.encode))) (.hash (keccak r.encode)) :=
    digest r.encode
  cases r with
  | short key val =>
    unfold reference
    split_ifs with small
    · exact embedded small.1
    · exact hashed
  | full children =>
    unfold reference
    split_ifs with small
    · exact embedded small.1
    · exact hashed
  | hash _ | value _ | nil => exact stored.elim

theorem hasTerm_hexToCompact {ds : List Nibble} (digits : Digits ds) (term : Bool) :
    hasTerm (compactToHex (hexToCompact (if term then ds ++ [terminator] else ds))) = term := by
  rw [compactToHex_hexToCompact_of_digits digits term, hasTerm_of_digits digits term]

/-- The stored form of a short node. -/
theorem stored_collapse_short (digest : ∀ data, (keccak data).length = hashLen) {key : List Nibble}
    {val : Node} {flags : NodeFlag} (keyed : Keyed (.short key val flags))
    (canonical : Canonical (.short key val flags))
    (below : Keyed val → Canonical val → val.isNil = false → Stored (collapse keccak val)) :
    Stored (collapse keccak (.short key val flags)) := by
  rcases keyed with ⟨digits, keyedVal⟩ | ⟨⟨ds, digits, rfl⟩, v, rfl⟩
  · obtain ⟨-, solid, canonicalVal⟩ := canonical
    -- below a key of digits stands a full node: no value, hash, short node or nothing
    have notValue : ∀ v, val ≠ .value v := by
      rintro v rfl
      exact keyedVal
    have live : val.isNil = false := by
      cases val <;> simp_all [Solid, Node.isNil]
    have noTerm := hasTerm_hexToCompact digits false
    simp only [Bool.false_eq_true, if_false] at noTerm
    rw [collapse_short_of_not_value notValue, Stored, noTerm]
    exact refForm_reference digest (below keyedVal canonicalVal live)
  · have term := hasTerm_hexToCompact digits true
    simp only [if_true] at term
    show Stored (.short (hexToCompact (ds ++ [terminator])) (.value v))
    rw [Stored, term]
    exact ⟨v, rfl⟩

/-- The stored form of every keyed, canonical node with nonempty values is a stored node. -/
theorem stored_collapse (digest : ∀ data, (keccak data).length = hashLen) {n : Node}
    (keyed : Keyed n) (canonical : Canonical n) (valued : ∀ key v, nodeMap n key = some v → v ≠ [])
    (live : n.isNil = false) : Stored (collapse keccak n) := by
  induction n with
  | full children flags inductionHypothesis =>
    obtain ⟨keyedChildren, leaf⟩ := keyed
    refine ⟨fun i nibble => ?_, ?_⟩
    · -- below a nibble: nothing, or a keyed child held by reference
      have keyedChild := keyedChildren i (fun same => by simp [same, terminator] at nibble)
      simp only [if_pos nibble]
      cases missing : (children i).isNil
      · exact .inr (refForm_reference digest (inductionHypothesis i keyedChild (canonical.2 i)
          (fun key v found => valued (i :: key) v (by simpa using found)) missing))
      · have absent : children i = .nil := by
          revert missing
          cases children i <;> simp [Node.isNil]
        exact .inl (by rw [absent]; rfl)
    · -- the value slot: nothing, or a value the map holds at the nibble 16
      show (children 16).raw = .nil ∨ ∃ v, v ≠ [] ∧ (children 16).raw = .value v
      cases slot : children terminator with
      | nil => exact .inl (by rw [show (16 : Fin 17) = terminator from rfl, slot]; rfl)
      | value v =>
        have held : nodeMap (.full children flags) [terminator] = some v := by
          simp [slot, Library.KeyMap.single_apply]
        refine .inr ⟨v, valued _ v held, ?_⟩
        rw [show (16 : Fin 17) = terminator from rfl, slot]
        rfl
      | _ => simp [slot, Leaf] at leaf
  | short key val flags inductionHypothesis =>
    exact stored_collapse_short digest keyed canonical fun keyedVal canonicalVal liveVal =>
      inductionHypothesis keyedVal canonical.2.2
        (fun key' v found => valued (key ++ key') v (by simpa using found)) liveVal
  | hash _ | value _ => exact keyed.elim
  | nil => simp [Node.isNil] at live

/-- What a parent holds for a node is the node's stored form itself or a hash. -/
theorem reference_cases (r : RawNode) :
    reference keccak false r = r ∨ ∃ digest, reference keccak false r = .hash digest := by
  unfold reference
  split
  · exact .inl rfl
  · exact .inl rfl
  · split_ifs
    · exact .inl rfl
    · exact .inr ⟨_, rfl⟩

/-- A reference read back and collapsed again is the reference it was read from. -/
theorem reference_collapse_expandNode (gen : UInt16) {c : Node}
    (back : collapse keccak (expandNode none (collapse keccak c) gen) = collapse keccak c) :
    reference keccak false (collapse keccak (expandNode none (reference keccak false
      (collapse keccak c)) gen)) = reference keccak false (collapse keccak c) := by
  rcases reference_cases (collapse keccak c) with same | ⟨digest, hashed⟩
  · rw [same, back, same]
  · rw [hashed]
    rfl

/-- A stored node read back has the stored form it was read from. -/
theorem collapse_expandNode (gen : UInt16) {n : Node} (keyed : Keyed n) (hash : Option Bytes) :
    collapse keccak (expandNode hash (collapse keccak n) gen) = collapse keccak n := by
  induction n generalizing hash with
  | full children flags inductionHypothesis =>
    obtain ⟨keyedChildren, leaf⟩ := keyed
    simp only [collapse, expandNode, RawNode.full.injEq]
    funext i
    by_cases nibble : i.val < 16
    · have keyedChild := keyedChildren i (fun same => by simp [same, terminator] at nibble)
      simp only [if_pos nibble]
      exact reference_collapse_expandNode gen (inductionHypothesis i keyedChild none)
    · -- the value slot holds nothing or a value, which read back is itself
      have last : i = terminator := by
        have := i.isLt
        exact Fin.ext (show i.val = 16 by omega)
      subst last
      simp only [if_neg nibble]
      cases slot : children terminator with
      | nil => rfl
      | value v => rfl
      | _ => simp [slot, Leaf] at leaf
  | short key val flags inductionHypothesis =>
    rcases keyed with ⟨digits, keyedVal⟩ | ⟨⟨ds, digits, rfl⟩, v, rfl⟩
    · have sameKey := compactToHex_hexToCompact_of_digits digits false
      simp only [Bool.false_eq_true, if_false] at sameKey
      have notValue : ∀ v, val ≠ .value v := by
        rintro v rfl
        exact keyedVal
      -- a reference reads back as a node that is no value
      have expandedNotValue : ∀ v, expandNode none (reference keccak false (collapse keccak val)) gen ≠
          .value v := by
        intro v same
        rcases reference_cases (collapse keccak val) with refSame | ⟨digest, hashed⟩
        · rw [refSame] at same
          cases val with
          | value w => exact notValue w rfl
          | _ => simp [collapse, expandNode] at same
        · rw [hashed] at same
          cases same
      rw [collapse_short_of_not_value notValue]
      simp only [expandNode]
      rw [collapse_short_of_not_value expandedNotValue, sameKey,
        reference_collapse_expandNode gen (inductionHypothesis keyedVal none)]
    · have sameKey := compactToHex_hexToCompact_of_digits digits true
      simp only [if_true] at sameKey
      simp only [collapse, expandNode, sameKey]
  | hash _ | value _ => exact keyed.elim
  | nil => rfl

end Collapse

section Loaded

variable {keccak : Bytes → Bytes}

/-- A node read back caches the hash it is given, and no other. -/
theorem cachesBy_expandNode {ok : Bool → Node → Bytes → Prop} (gen : UInt16) (r : RawNode)
    (top : Bool) (hash : Option Bytes)
    (here : ∀ digest, hash = some digest → ok top (expandNode hash r gen) digest) :
    CachesBy ok top (expandNode hash r gen) := by
  induction r generalizing top hash with
  | full children inductionHypothesis =>
    exact ⟨here, fun i => inductionHypothesis i false none fun _ absent => by simp at absent⟩
  | short key val inductionHypothesis =>
    exact ⟨here, inductionHypothesis false none fun _ absent => by simp at absent⟩
  | hash _ | value _ | nil => trivial

/-- A node that is there, stored and read back under its hash, caches that hash, right. -/
theorem cachesRight_expandNode (gen : UInt16) {n : Node} (keyed : Keyed n)
    (live : n.isNil = false) :
    CachesRight keccak true (expandNode (some (rootHash keccak n)) (collapse keccak n) gen) := by
  refine cachesBy_expandNode gen _ true _ fun digest cached => ?_
  cases cached
  rw [HashRight, collapse_expandNode gen keyed, reference_true_of_live live]

/-- The values a map keeps through calls from a map of nonempty values are nonempty. -/
theorem applyCalls_valued {m : Bytes → Option Bytes} (valued : ∀ key v, m key = some v → v ≠ [])
    (calls : List Call) : ∀ key v, (applyCalls keccak m calls).1 key = some v → v ≠ [] := by
  induction calls generalizing m with
  | nil => exact valued
  | cons call calls inductionHypothesis =>
    apply inductionHypothesis
    intro key v found
    cases call with
    | update key' value =>
      by_cases same : key = key'
      · subst same
        simp only [Function.update_self, stored] at found
        split_ifs at found with nonempty
        cases found
        simpa using nonempty
      · simp only [Function.update_of_ne same] at found
        exact valued key v found
    | delete key' =>
      by_cases same : key = key'
      · subst same
        simp at found
      · simp only [Function.update_of_ne same] at found
        exact valued key v found
    | get _ => exact valued key v found
    | hash => exact valued key v found

/-- A trie that calls from the empty trie leave holds values of some bytes only. -/
theorem valued_of_calls {db : Database} {calls : List Call} {t : Trie}
    (mapEq : contents t = (applyCalls keccak (contents (Trie.empty db)) calls).1) :
    ∀ key v, contents t key = some v → v ≠ [] := by
  rw [mapEq]
  refine applyCalls_valued (fun key v absent => ?_) calls
  simp [contents, Trie.empty] at absent

/-- Every value below the root of a sound trie is one its map holds. -/
theorem valued_nodeMap {t : Trie} (sound : Sound keccak t)
    (valued : ∀ key v, contents t key = some v → v ≠ []) :
    ∀ hex v, nodeMap t.root hex = some v → v ≠ [] := by
  intro hex v found
  obtain ⟨key, rfl⟩ := sound.holds.only_keys hex (by simp [found])
  exact valued key v found

/-- The root of a sound trie reads back under its hash to a node of the same stored form. -/
theorem decodeNode_root (digest : ∀ data, (keccak data).length = hashLen) {t : Trie}
    (sound : Sound keccak t) (valued : ∀ key v, contents t key = some v → v ≠ [])
    (live : t.root.isNil = false) (bound : (collapse keccak t.root).encode.length < 2 ^ 64)
    (gen : UInt16) :
    ∃ m, decodeNode (some (rootHash keccak t.root)) (collapse keccak t.root).encode gen = .ok m ∧
      collapse keccak m = collapse keccak t.root ∧ CachesRight keccak true m := by
  have stored := stored_collapse digest sound.keyed sound.canonical (valued_nodeMap sound valued) live
  have decoded := decodesBack_of_stored gen stored bound (some (rootHash keccak t.root)) []
  rw [List.append_nil] at decoded
  exact ⟨_, decoded, collapse_expandNode gen sound.keyed _,
    cachesRight_expandNode gen sound.keyed live⟩

/-- Every run of calls leaves a root that reads back under its hash to the same stored form. -/
theorem runCalls_root_decodes (keccak : Bytes → Bytes)
    (digest : ∀ data, (keccak data).length = hashLen) (db : Database) (calls : List Call)
    (gen : UInt16) :
    ∃ t, (runCalls keccak (Trie.empty db) calls).map Prod.fst = .ok t ∧
      (t.root.isNil = false → (collapse keccak t.root).encode.length < 2 ^ 64 →
        ∃ m, decodeNode (some (rootHash keccak t.root)) (collapse keccak t.root).encode gen = .ok m ∧
          collapse keccak m = collapse keccak t.root ∧ CachesRight keccak true m) := by
  obtain ⟨t, ran, mapEq, sound⟩ := runCalls_refines (sound_empty keccak db) calls
  exact ⟨t, by rw [ran]; rfl,
    fun live bound => decodeNode_root digest sound (valued_of_calls mapEq) live bound gen⟩

/-- One key set, under a hash that is 32 zero bytes whatever it hashes. -/
theorem runCalls_root_decodes_zeroHash :
    (∀ data : Bytes, ((fun _ => List.replicate 32 0) data : Bytes).length = hashLen) ∧
    ∃ t, (runCalls (fun _ => List.replicate 32 0) (Trie.empty .empty) [.update [1] [2]]).map
        Prod.fst = .ok t ∧
      (t.root.isNil = false →
        (collapse (fun _ => List.replicate 32 0) t.root).encode.length < 2 ^ 64 →
        ∃ m, decodeNode (some (rootHash (fun _ => List.replicate 32 0) t.root))
            (collapse (fun _ => List.replicate 32 0) t.root).encode 0 = .ok m ∧
          collapse (fun _ => List.replicate 32 0) m = collapse (fun _ => List.replicate 32 0) t.root ∧
          CachesRight (fun _ => List.replicate 32 0) true m) := by
  have digest : ∀ data : Bytes, ((fun _ => List.replicate 32 0) data : Bytes).length = hashLen :=
    fun _ => by simp [hashLen]
  exact ⟨digest, runCalls_root_decodes _ digest .empty [.update [1] [2]] 0⟩

end Loaded

end Tangerine.Proof.TrieDecode
