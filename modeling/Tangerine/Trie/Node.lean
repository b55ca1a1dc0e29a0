import Tangerine.Trie.Encoding
import Tangerine.Rlp.Raw

/-! The nodes of the trie (`trie/node.go`), their stored form, its encoding and its decoding. -/

namespace Tangerine.Trie

open Tangerine.Common Tangerine.Rlp

/-- `nodeFlag`: the node's hash once computed, its cache generation, and whether it is dirty. -/
structure NodeFlag where
  hash : Option Bytes
  gen : UInt16
  dirty : Bool

/-- `node`: full, short, hash and value nodes; `nil` is the empty trie and the missing child. -/
inductive Node where
  | full (children : Fin 17 → Node) (flags : NodeFlag)
  | short (key : List Nibble) (val : Node) (flags : NodeFlag)
  | hash (hash : Bytes)
  | value (value : Bytes)
  | nil

namespace Node

/-- Whether a node is `nil`. -/
def isNil : Node → Bool
  | nil => true
  | _ => false

/-- `cache`: the cached hash and whether the node is dirty. -/
def cache : Node → Option Bytes × Bool
  | full _ flags => (flags.hash, flags.dirty)
  | short _ _ flags => (flags.hash, flags.dirty)
  | _ => (none, true)

/-- `canUnload`: a clean node whose generation is `cachelimit` or more behind. -/
def canUnload (cachegen cachelimit : UInt16) : Node → Bool
  | full _ flags => !flags.dirty && cachegen - flags.gen >= cachelimit
  | short _ _ flags => !flags.dirty && cachegen - flags.gen >= cachelimit
  | _ => false

end Node

/-- A stored node: `rawFullNode`, `rawShortNode` with a COMPACT key, or a hash, value or nothing. -/
inductive RawNode where
  | full (children : Fin 17 → RawNode)
  | short (key : Bytes) (val : RawNode)
  | hash (hash : Bytes)
  | value (value : Bytes)
  | nil

namespace RawNode

/-- The RLP encoding of a stored node (`rlp.Encode`). -/
def encode : RawNode → Bytes
  | full children => listEncoding ((List.finRange 17).flatMap fun i =>
      match children i with
      | nil => stringEncoding []
      | _ => encode (children i))
  | short key val => listEncoding (stringEncoding key ++ encode val)
  | hash h => stringEncoding h
  | value v => stringEncoding v
  | nil => [0xC0]

end RawNode

/-- `expandNode`: a stored node back in memory form; only the outer node takes the hash. -/
def expandNode (hash : Option Bytes) (n : RawNode) (cachegen : UInt16) : Node :=
  match n with
  | .short key val =>
    .short (compactToHex key) (expandNode none val cachegen) ⟨hash, cachegen, false⟩
  | .full children =>
    -- a missing child is skipped, and stays missing
    .full (fun i => expandNode none (children i) cachegen) ⟨hash, cachegen, false⟩
  | .value value => .value value
  | .hash hash => .hash hash
  | .nil => .nil

/-- The failures of `decodeNode`. -/
inductive DecodeFailure where
  | unexpectedEOF
  /-- `decode error: %v`, of the outer list. -/
  | decode (err : Rlp.Error)
  | invalidListElements (count : Nat)
  | invalidValueNode (err : Rlp.Error)
  | oversizedEmbedded (size : Nat)
  | invalidStringSize (size : Nat)
  /-- An error of `rlp` passed on as it is. -/
  | rlp (err : Rlp.Error)
deriving DecidableEq

/-- `decodeError`: a failure and the path of contexts it was met under, innermost first. -/
structure DecodeError where
  what : DecodeFailure
  stack : List String
deriving DecidableEq

/-- `wrapError`: the context is added to the path. -/
def wrapError (err : DecodeError) (ctx : String) : DecodeError :=
  { err with stack := err.stack ++ [ctx] }

/-- A failure not yet wrapped. -/
def DecodeError.plain (what : DecodeFailure) : DecodeError := ⟨what, []⟩

/-- The size of a hash node, `len(common.Hash{})`. -/
def hashLen : Nat := 32

mutual

/-- `decodeNode`: a list of two values is a short node, of seventeen a full node. -/
def decodeNode (hash : Option Bytes) (buf : Bytes) (cachegen : UInt16) :
    Except DecodeError Node :=
  if buf = [] then .error (.plain .unexpectedEOF)
  else
    match listed : splitList buf with
    | .error err => .error (.plain (.decode err))
    | .ok (elems, _) =>
      -- `CountValues` fails with a count of zero
      match (match countValues elems with | .ok c => c | .error _ => 0) with
      | 2 => (decodeShort hash elems cachegen).mapError (wrapError · "short")
      | 17 => (decodeFull hash elems cachegen).mapError (wrapError · "full")
      | c => .error (.plain (.invalidListElements c))
termination_by (4 * buf.length, 0)
decreasing_by
  all_goals
    have shorter := splitList_content_length listed
    exact Prod.Lex.left _ _ (by omega)

/-- `decodeShort`: a terminated key holds a value, any other key a reference. -/
def decodeShort (hash : Option Bytes) (elems : Bytes) (cachegen : UInt16) :
    Except DecodeError Node :=
  match keyed : splitString elems with
  | .error err => .error (.plain (.rlp err))
  | .ok (kbuf, rest) =>
    let flag : NodeFlag := ⟨hash, cachegen, false⟩
    let key := compactToHex kbuf
    if hasTerm key then
      -- value node
      match splitString rest with
      | .error err => .error (.plain (.invalidValueNode err))
      | .ok (val, _) => .ok (.short key (.value val) flag)
    else
      match decodeRef rest cachegen with
      | .error err => .error (wrapError err "val")
      | .ok (r, _) => .ok (.short key r flag)
termination_by (4 * elems.length + 3, 0)
decreasing_by
  have shorter := splitString_rest_length keyed
  exact Prod.Lex.left _ _ (by omega)

/-- `decodeFull`: sixteen references, then the value slot. -/
def decodeFull (hash : Option Bytes) (elems : Bytes) (cachegen : UInt16) :
    Except DecodeError Node := do
  let (children, elems) ← decodeRefs cachegen 16 elems
  match splitString elems with
  | .error err => .error (.plain (.rlp err))
  | .ok (val, _) =>
    let children := fun i : Fin 17 =>
      if i.val < 16 then children.getD i.val .nil
      else if val ≠ [] then .value val else .nil
    .ok (.full children ⟨hash, cachegen, false⟩)
termination_by (4 * elems.length + 3, 0)
decreasing_by exact Prod.Lex.left _ _ (by omega)

/-- The loop of `decodeFull` over its remaining `count` references. -/
def decodeRefs (cachegen : UInt16) (count : Nat) (elems : Bytes) :
    Except DecodeError (List Node × Bytes) :=
  match count with
  | 0 => .ok ([], elems)
  | count + 1 =>
    match decodeRef elems cachegen with
    | .error err => .error (wrapError err s!"[{16 - (count + 1)}]")
    | .ok (cld, rest) =>
      match decodeRefs cachegen count rest.val with
      | .error err => .error err
      | .ok (children, rest) => .ok (cld :: children, rest)
termination_by (4 * elems.length + 2, count)
decreasing_by
  · exact Prod.Lex.left _ _ (by omega)
  · have := rest.property
    exact Prod.Lex.left _ _ (by omega)

/-- `decodeRef`: an embedded node, nothing, or a hash, and what follows it. -/
def decodeRef (buf : Bytes) (cachegen : UInt16) :
    Except DecodeError (Node × {rest : Bytes // rest.length < buf.length}) :=
  match splitted : split buf with
  | .error err => .error (.plain (.rlp err))
  | .ok (kind, val, rest) =>
    let rest' : {rest : Bytes // rest.length < buf.length} := ⟨rest, split_rest_length splitted⟩
    if kind = .list then
      -- 'embedded' node reference. The encoding must be smaller than a hash in order to be
      -- valid.
      let size := buf.length - rest.length
      if size > hashLen then .error (.plain (.oversizedEmbedded size))
      else
        match decodeNode none buf cachegen with
        | .error err => .error err
        | .ok n => .ok (n, rest')
    else if kind = .string ∧ val.length = 0 then
      -- empty node
      .ok (.nil, rest')
    else if kind = .string ∧ val.length = 32 then .ok (.hash val, rest')
    else .error (.plain (.invalidStringSize val.length))
termination_by (4 * buf.length + 1, 0)
decreasing_by exact Prod.Lex.left _ _ (by omega)

end

end Tangerine.Trie
