import Tangerine.Trie.Trie
import Tangerine.Core.Vm.GovernanceStorage

/-! The hasher of the trie (`trie/hasher.go`) and the trie's `Hash` and `Commit`. -/

namespace Tangerine.Trie

set_option linter.dupNamespace false

open Tangerine.Common Tangerine.Core.Vm

/-- `emptyRoot`: the known root hash of an empty trie. -/
def emptyRoot : Tangerine.Common.Hash :=
  0x56e81f171bcc55a6ff8345e692c0f86e5b48e01b996cadc001622fb5e363b421#256

/-- A node as `rlp.Encode` writes it without collapsing: a short node's key one byte a nibble. -/
def Node.raw : Node → RawNode
  | .full children _ => .full fun i => raw (children i)
  | .short key val _ => .short (key.map fun d => UInt8.ofNat d.val) (raw val)
  | .hash digest => .hash digest
  | .value v => .value v
  | .nil => .nil

/-- `hasher`: the cache generation and limit that `hash` unloads nodes by. -/
structure Hasher where
  cachegen : UInt16
  cachelimit : UInt16

/-- What `hash` returns: the collapsed node, the node with hashes cached, and the writes. -/
structure Hashed where
  hashed : RawNode
  cached : Node
  stored : List (Bytes × Bytes)

namespace Hasher

variable (keccak : Bytes → Bytes) (h : Hasher)

/-- `makeHashNode`: the Keccak-256 hash of the data. -/
def makeHashNode (data : Bytes) : Bytes := keccak data

/-- `store`: a node of 32 bytes or more, or any under `force`, gives way to its hash. -/
def store (n : RawNode) (cachedHash : Option Bytes) (db force : Bool) :
    RawNode × List (Bytes × Bytes) :=
  match n with
  -- Don't store hashes or empty nodes.
  | .hash _ | .nil => (n, [])
  | _ =>
    let enc := n.encode
    if enc.length < 32 ∧ force = false then
      -- Nodes smaller than 32 bytes are stored inside their parent
      (n, [])
    else
      let hash := cachedHash.getD (makeHashNode keccak enc)
      (.hash hash, if db then [(hash, enc)] else [])

/-- The start of `hash`: a node with a cached hash; `none` when it is to be walked. -/
def cachedHashed (n : Node) (db : Bool) : Option Hashed :=
  match n.cache with
  | (some hash, dirty) =>
    if db = false then some ⟨.hash hash, n, []⟩
    else if n.canUnload h.cachegen h.cachelimit then some ⟨.hash hash, .hash hash, []⟩
    else if dirty = false then some ⟨.hash hash, n, []⟩
    else none
  | (none, _) => none

/-- `hashed.(hashNode)` with its `ok` dropped. -/
def asHash : RawNode → Option Bytes
  | .hash hash => some hash
  | _ => none

/-- The end of `hash`: the hash `store` returned cached in the node. -/
def cacheHash (cached : Node) (hashed : RawNode) (db : Bool) : Node :=
  let update (flags : NodeFlag) : NodeFlag :=
    { flags with hash := asHash hashed, dirty := if db then false else flags.dirty }
  match cached with
  | .short key val flags => .short key val (update flags)
  | .full children flags => .full children (update flags)
  | n => n

/-- `hashChildren` of a short node, given what `hash` returns for its child. -/
def hashChildrenShort (key : List Nibble) (val : Node) (flags : NodeFlag) (child : Hashed) :
    RawNode × Node × List (Bytes × Bytes) :=
  match val with
  | .value v => (.short (hexToCompact key) (.value v), .short key val flags, [])
  | _ => (.short (hexToCompact key) child.hashed, .short key child.cached flags, child.stored)

/-- Whether the loop of `hashChildren` hashes a full node's child. -/
def hashesChild (children : Fin 17 → Node) (i : Fin 17) : Bool :=
  decide (i.val < 16) && !(children i).isNil

/-- `hashChildren` of a full node, given what `hash` returns for each child. -/
def hashChildrenFull (children : Fin 17 → Node) (flags : NodeFlag) (child : Fin 17 → Hashed) :
    RawNode × Node × List (Bytes × Bytes) :=
  (.full fun i => if hashesChild children i then (child i).hashed else (children i).raw,
    .full (fun i => if hashesChild children i then (child i).cached else children i) flags,
    (List.finRange 17).flatMap fun i => if hashesChild children i then (child i).stored else [])

/-- `hash`: the collapsed node, the node with the hashes computed cached, and the writes. -/
def hash (n : Node) (db force : Bool) : Hashed :=
  match h.cachedHashed n db with
  | some early => early
  | none =>
    -- Trie not processed yet or needs storage, walk the children
    let walked : RawNode × Node × List (Bytes × Bytes) := match n with
      | .short key val flags => hashChildrenShort key val flags (hash val db false)
      | .full children flags => hashChildrenFull children flags fun i => hash (children i) db false
      | n => (n.raw, n, [])
    let stored := store keccak walked.1 n.cache.1 db force
    ⟨stored.1, cacheHash walked.2.1 stored.1 db, walked.2.2 ++ stored.2⟩

/-- `hashChildren`: a short or full node with its children collapsed and their hashes cached. -/
def hashChildren (original : Node) (db : Bool) : RawNode × Node × List (Bytes × Bytes) :=
  match original with
  | .short key val flags => hashChildrenShort key val flags (h.hash keccak val db false)
  | .full children flags => hashChildrenFull children flags fun i => h.hash keccak (children i) db false
  | n => (n.raw, n, [])

end Hasher

namespace Trie

variable (keccak : Bytes → Bytes) (t : Trie)

/-- `hashRoot`: the empty root, or the root hashed with `force`. -/
def hashRoot (db : Bool) : Hashed :=
  match t.root with
  | .nil => ⟨.hash (hashToBytes emptyRoot), .nil, []⟩
  | root => (Hasher.mk t.cachegen t.cachelimit).hash keccak root db true

/-- `Hash`: the root hash, and the trie with the hashes cached in its root. -/
def Hash : Except TrieError (Tangerine.Common.Hash × Trie) :=
  let hashed := t.hashRoot keccak false
  match hashed.hashed with
  | .hash hash => .ok (bytesToHash hash, { t with root := hashed.cached })
  | _ => .error (.panic "interface conversion")

/-- `Commit`: the root hash, the trie in the next cache generation, and the writes. -/
def Commit : Except TrieError (Tangerine.Common.Hash × Trie × List (Bytes × Bytes)) :=
  let hashed := t.hashRoot keccak true
  match hashed.hashed with
  | .hash hash =>
    .ok (bytesToHash hash, { t with root := hashed.cached, cachegen := t.cachegen + 1 }, hashed.stored)
  | _ => .error (.panic "interface conversion")

end Trie

end Tangerine.Trie
