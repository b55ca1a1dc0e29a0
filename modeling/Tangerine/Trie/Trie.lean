import Tangerine.Trie.Node
import Tangerine.Library.Loop
import Mathlib.Data.Fintype.Basic
import Mathlib.Data.Finset.Lattice.Fold

/-! `TryGet`, `TryUpdate` and `TryDelete` of a Merkle-Patricia trie (`trie/trie.go`). -/

namespace Tangerine.Trie

set_option linter.dupNamespace false

open Tangerine.Common Tangerine.Library

/-- The height of a node, each hash node one above its hash: what the walks lower. -/
def Node.height (hashHeight : Bytes → Nat) : Node → Nat
  | .full children _ => (Finset.univ.sup fun i => height hashHeight (children i)) + 1
  | .short _ val _ => height hashHeight val + 1
  | .hash digest => hashHeight digest + 1
  | .value _ | .nil => 0

/-- `Database`, as the trie reads it: a stored node is no higher than the height of its hash. -/
structure Database where
  node : Bytes → UInt16 → Option Node
  hashHeight : Bytes → Nat
  stored_le : ∀ hash cachegen n, node hash cachegen = some n → n.height hashHeight ≤ hashHeight hash

/-- A database that holds no node. -/
def Database.empty : Database where
  node _ _ := none
  hashHeight _ := 0
  stored_le _ _ _ absent := nomatch absent

/-- `MissingNodeError`: the hash of a node the database does not hold and the HEX path to it. -/
structure MissingNodeError where
  nodeHash : Bytes
  path : List Nibble
deriving DecidableEq

/-- How an operation of the trie fails: a node missing from the database, or a panic. -/
inductive TrieError where
  | missingNode (err : MissingNodeError)
  | panic (message : String)
deriving DecidableEq

/-- `Trie`. -/
structure Trie where
  db : Database
  root : Node
  cachegen : UInt16
  cachelimit : UInt16

/-- The empty trie over a database. -/
def Trie.empty (db : Database) : Trie := ⟨db, .nil, 0, 0⟩

namespace Trie

variable (t : Trie)

/-- `newFlag`: a node made now is dirty and tagged with the current generation. -/
def newFlag : NodeFlag := ⟨none, t.cachegen, true⟩

/-- `resolveHash`: the node stored under a hash, or the error naming it and the path to it. -/
def resolveHash (n : Bytes) (path : List Nibble) : Except TrieError Node :=
  match t.db.node n t.cachegen with
  | some node => .ok node
  | none => .error (.missingNode ⟨n, path⟩)

/-- `resolve`: a hash node resolved, any other node as it is. -/
def resolve (n : Node) (path : List Nibble) : Except TrieError Node :=
  match n with
  | .hash hash => t.resolveHash hash path
  | n => .ok n

theorem height_resolveHash_lt {n : Bytes} {path : List Nibble} {node : Node}
    (resolved : t.resolveHash n path = .ok node) :
    node.height t.db.hashHeight < (Node.hash n).height t.db.hashHeight := by
  unfold resolveHash at resolved
  split at resolved
  · rename_i stored
    cases resolved
    have := t.db.stored_le n t.cachegen node stored
    simp only [Node.height]
    omega
  · cases resolved

theorem height_child_lt (hashHeight : Bytes → Nat) (children : Fin 17 → Node) (flags : NodeFlag)
    (i : Fin 17) : (children i).height hashHeight < (Node.full children flags).height hashHeight := by
  have : (children i).height hashHeight ≤ Finset.univ.sup fun j => (children j).height hashHeight :=
    Finset.le_sup (f := fun j => (children j).height hashHeight) (Finset.mem_univ i)
  simp only [Node.height]
  omega

theorem height_val_lt (hashHeight : Bytes → Nat) (key : List Nibble) (val : Node) (flags : NodeFlag) :
    val.height hashHeight < (Node.short key val flags).height hashHeight := by
  simp only [Node.height]
  omega

/-- `tryGet`: the value at `key` from `pos` on, and the node with what it resolved. -/
def tryGet (origNode : Node) (key : List Nibble) (pos : Nat) :
    Except TrieError (Option Bytes × Node × Bool) :=
  match origNode with
  | .nil => .ok (none, .nil, false)
  | .value v => .ok (some v, .value v, false)
  | .short nkey val flags =>
    if key.length - pos < nkey.length ∨ nkey ≠ (key.drop pos).take nkey.length then
      -- key not found in trie
      .ok (none, origNode, false)
    else
      match tryGet val key (pos + nkey.length) with
      | .error err => .error err
      | .ok (value, newnode, didResolve) =>
        if didResolve then .ok (value, .short nkey newnode { flags with gen := t.cachegen }, true)
        else .ok (value, origNode, false)
  | .full children flags =>
    match key[pos]? with
    | none => .error (.panic "index out of range")
    | some i =>
      match tryGet (children i) key (pos + 1) with
      | .error err => .error err
      | .ok (value, newnode, didResolve) =>
        if didResolve then
          .ok (value, .full (Function.update children i newnode) { flags with gen := t.cachegen }, true)
        else .ok (value, origNode, false)
  | .hash hash =>
    match resolved : t.resolveHash hash (key.take pos) with
    | .error err => .error err
    | .ok child =>
      match tryGet child key pos with
      | .error err => .error err
      | .ok (value, newnode, _) => .ok (value, newnode, true)
termination_by origNode.height t.db.hashHeight
decreasing_by
  · exact height_val_lt _ _ _ _
  · exact height_child_lt _ _ _ _
  · exact t.height_resolveHash_lt resolved

/-- `insert`: `value` put at `key` below `n`, and whether that changed anything. -/
def insert (n : Node) (path key : List Nibble) (value : Node) : Except TrieError (Bool × Node) :=
  match key, n with
  | [], .value v =>
    match value with
    | .value w => .ok (v != w, value)
    | _ => .error (.panic "interface conversion")
  | [], _ => .ok (true, value)
  | k :: rest, .short nkey val _ =>
    let key := k :: rest
    let matchlen := prefixLen key nkey
    -- If the whole key matches, keep this short node as is and only update the value.
    if matchlen = nkey.length then
      match insert val (path ++ key.take matchlen) (key.drop matchlen) value with
      | .error err => .error err
      | .ok (dirty, nn) => if !dirty then .ok (false, n) else .ok (true, .short nkey nn t.newFlag)
    else
      -- Otherwise branch out at the index where they differ.
      match nkey[matchlen]? with
      | none => .error (.panic "index out of range")
      | some old =>
        match insert .nil (path ++ nkey.take (matchlen + 1)) (nkey.drop (matchlen + 1)) val with
        | .error err => .error err
        | .ok (_, oldChild) =>
          match key[matchlen]? with
          | none => .error (.panic "index out of range")
          | some new =>
            match insert .nil (path ++ key.take (matchlen + 1)) (key.drop (matchlen + 1)) value with
            | .error err => .error err
            | .ok (_, newChild) =>
              let branch : Node :=
                .full (Function.update (Function.update (fun _ => .nil) old oldChild) new newChild)
                  t.newFlag
              -- Replace this shortNode with the branch if it occurs at index 0.
              if matchlen = 0 then .ok (true, branch)
              else .ok (true, .short (key.take matchlen) branch t.newFlag)
  | k :: rest, .full children _ =>
    match insert (children k) (path ++ [k]) rest value with
    | .error err => .error err
    | .ok (dirty, nn) =>
      if !dirty then .ok (false, n) else .ok (true, .full (Function.update children k nn) t.newFlag)
  | k :: rest, .nil => .ok (true, .short (k :: rest) value t.newFlag)
  | k :: rest, .hash hash =>
    match resolved : t.resolveHash hash path with
    | .error err => .error err
    | .ok rn =>
      match insert rn path (k :: rest) value with
      | .error err => .error err
      | .ok (dirty, nn) => if !dirty then .ok (false, rn) else .ok (true, nn)
  | _ :: _, .value _ => .error (.panic "invalid node")
termination_by n.height t.db.hashHeight
decreasing_by
  · exact height_val_lt _ _ _ _
  · exact Nat.lt_of_le_of_lt (Nat.zero_le _) (height_val_lt _ _ _ _)
  · exact Nat.lt_of_le_of_lt (Nat.zero_le _) (height_val_lt _ _ _ _)
  · exact height_child_lt _ _ _ _
  · exact t.height_resolveHash_lt resolved

/-- The loop of `delete` over a full node's children: the one child left, `-1` or `-2`. -/
def remainingPos (children : Fin 17 → Node) : Int :=
  forBreak (fun pos i =>
    if (children i).isNil then .next pos
    else if pos = -1 then .next i.val
    else .exit (-2)) (List.finRange 17) (-1)

/-- `delete`: the value at `key` below `n` removed, and whether anything was. -/
def delete (n : Node) (path key : List Nibble) : Except TrieError (Bool × Node) :=
  match n with
  | .short nkey val _ =>
    let matchlen := prefixLen key nkey
    if matchlen < nkey.length then .ok (false, n)
    else if matchlen = key.length then .ok (true, .nil)
    else
      -- The key is longer than n.Key. Remove the remaining suffix from the subtrie.
      match delete val (path ++ key.take nkey.length) (key.drop nkey.length) with
      | .error err => .error err
      | .ok (dirty, child) =>
        if !dirty then .ok (false, n)
        else
          match child with
          | .short ckey cval _ => .ok (true, .short (nkey ++ ckey) cval t.newFlag)
          | _ => .ok (true, .short nkey child t.newFlag)
  | .full children _ =>
    match key with
    | [] => .error (.panic "index out of range")
    | k :: rest =>
      match delete (children k) (path ++ [k]) rest with
      | .error err => .error err
      | .ok (dirty, nn) =>
        if !dirty then .ok (false, n)
        else
          let children := Function.update children k nn
          let pos := remainingPos children
          if pos ≥ 0 then
            let i : Nibble := Fin.ofNat 17 pos.toNat
            if pos ≠ 16 then
              -- The only child left may be a short node not yet loaded: resolve it to check.
              match t.resolve (children i) path with
              | .error err => .error err
              | .ok (.short ckey cval _) => .ok (true, .short (i :: ckey) cval t.newFlag)
              | .ok _ => .ok (true, .short [i] (children i) t.newFlag)
            else .ok (true, .short [i] (children i) t.newFlag)
          else .ok (true, .full children t.newFlag)
  | .value _ => .ok (true, .nil)
  | .nil => .ok (false, .nil)
  | .hash hash =>
    match resolved : t.resolveHash hash path with
    | .error err => .error err
    | .ok rn =>
      match delete rn path key with
      | .error err => .error err
      | .ok (dirty, nn) => if !dirty then .ok (false, rn) else .ok (true, nn)
termination_by n.height t.db.hashHeight
decreasing_by
  · exact height_val_lt _ _ _ _
  · exact height_child_lt _ _ _ _
  · exact t.height_resolveHash_lt resolved

/-- `TryGet`: the value at a key, with the trie keeping what was resolved on the way. -/
def TryGet (key : Bytes) : Except TrieError (Option Bytes × Trie) :=
  match t.tryGet t.root (keybytesToHex key) 0 with
  | .error err => .error err
  | .ok (value, newroot, didResolve) =>
    .ok (value, if didResolve then { t with root := newroot } else t)

/-- `TryUpdate`: the value put at a key; a value of no bytes deletes the key. -/
def TryUpdate (key value : Bytes) : Except TrieError Trie :=
  let k := keybytesToHex key
  if value.length ≠ 0 then
    match t.insert t.root [] k (.value value) with
    | .error err => .error err
    | .ok (_, n) => .ok { t with root := n }
  else
    match t.delete t.root [] k with
    | .error err => .error err
    | .ok (_, n) => .ok { t with root := n }

/-- `TryDelete`: the value at a key removed. -/
def TryDelete (key : Bytes) : Except TrieError Trie :=
  match t.delete t.root [] (keybytesToHex key) with
  | .error err => .error err
  | .ok (_, n) => .ok { t with root := n }

end Trie

end Tangerine.Trie
