import Tangerine.Trie.Hasher

/-! Merkle proofs of the trie (`trie/proof.go`) over an in-memory proof database. -/

namespace Tangerine.Trie

set_option linter.dupNamespace false

open Tangerine.Common Tangerine.Core.Vm

/-- `MemDatabase.Get` after the given `Put`s, in order: the value put last under the key. -/
def memoryGet (writes : List (Bytes × Bytes)) (key : Bytes) : Option Bytes :=
  (writes.reverse.find? fun w => w.1 == key).map Prod.snd

namespace Trie

variable (keccak : Bytes → Bytes) (t : Trie)

/-- The first loop of `Prove`: the nodes on the path to the key, hash nodes resolved. -/
def pathNodes (tn : Node) (key : List Nibble) : Except TrieError (List Node) :=
  match key, tn with
  | [], _ => .ok []
  | _, .nil => .ok []
  | key, .short nkey val flags =>
    if key.length < nkey.length ∨ nkey ≠ key.take nkey.length then
      -- The trie doesn't contain the key.
      .ok [.short nkey val flags]
    else (pathNodes val (key.drop nkey.length)).map (.short nkey val flags :: ·)
  | i :: rest, .full children flags => (pathNodes (children i) rest).map (.full children flags :: ·)
  | key, .hash hash =>
    match resolved : t.resolveHash hash [] with
    | .error err => .error err
    | .ok n => pathNodes n key
  | _ :: _, .value _ => .error (.panic "invalid node")
termination_by tn.height t.db.hashHeight
decreasing_by
  · exact height_val_lt _ _ _ _
  · exact height_child_lt _ _ _ _
  · exact t.height_resolveHash_lt resolved

end Trie

/-- The second loop of `Prove`: the proof elements from the `i`th node on, and their writes. -/
def proofWrites (keccak : Bytes → Bytes) (hasher : Hasher) :
    Nat → Nat → List Node → List (Bytes × Bytes)
  | _, _, [] => []
  | i, fromLevel, n :: nodes =>
    let collapsed := (hasher.hashChildren keccak n false).1
    let hn := Hasher.asHash (Hasher.store keccak collapsed n.cache.1 false false).1
    if hn.isSome ∨ i = 0 then
      if fromLevel > 0 then proofWrites keccak hasher (i + 1) (fromLevel - 1) nodes
      else
        let enc := collapsed.encode
        (hn.getD (keccak enc), enc) :: proofWrites keccak hasher (i + 1) fromLevel nodes
    else proofWrites keccak hasher (i + 1) fromLevel nodes

/-- `Prove`: the proof elements of the key, the first `fromLevel` of them left out. -/
def Trie.Prove (keccak : Bytes → Bytes) (t : Trie) (key : Bytes) (fromLevel : Nat) :
    Except TrieError (List (Bytes × Bytes)) :=
  (t.pathNodes t.root (keybytesToHex key)).map (proofWrites keccak ⟨0, 0⟩ 0 fromLevel)

/-- `get` of `proof.go`: where the key's walk from `tn` ends, and the rest of the key there. -/
def get (tn : Node) (key : List Nibble) : Except TrieError (List Nibble × Node) :=
  match tn with
  | .short nkey val _ =>
    if key.length < nkey.length ∨ nkey ≠ key.take nkey.length then .ok ([], .nil)
    else get val (key.drop nkey.length)
  | .full children _ =>
    match key with
    | [] => .error (.panic "index out of range")
    | i :: rest => get (children i) rest
  | .hash _ => .ok (key, tn)
  | .nil => .ok (key, .nil)
  | .value _ => .ok ([], tn)

/-- How `VerifyProof` fails. -/
inductive VerifyError where
  /-- `proof node %d (hash %064x) missing`. -/
  | missing (node : Nat) (hash : Bytes)
  /-- `bad proof node %d: %v`. -/
  | badNode (node : Nat) (err : DecodeError)
  | panic (err : TrieError)

/-- `copy(wantHash[:], cld)`: as many bytes of the new hash as fit over the old one. -/
def copyHash (wantHash cld : Bytes) : Bytes := cld.take wantHash.length ++ wantHash.drop cld.length

/-- The loop of `VerifyProof` from its `i`th node on, with `fuel` rounds to go. -/
def verifyProofFrom (proofDb : Bytes → Option Bytes) :
    Nat → Nat → Bytes → List Nibble → Option (Except VerifyError (Option Bytes × Nat))
  | 0, _, _, _ => none
  | fuel + 1, i, wantHash, key =>
    match proofDb wantHash with
    | none => some (.error (.missing i wantHash))
    | some buf =>
      match decodeNode (some wantHash) buf 0 with
      | .error err => some (.error (.badNode i err))
      | .ok n =>
        match get n key with
        | .error err => some (.error (.panic err))
        | .ok (_, .nil) =>
          -- The trie doesn't contain the key.
          some (.ok (none, i))
        | .ok (keyrest, .hash cld) => verifyProofFrom proofDb fuel (i + 1) (copyHash wantHash cld) keyrest
        | .ok (_, .value v) => some (.ok (some v, i + 1))
        -- `get` stops at no other node; the `switch` would go round again
        | .ok (_, _) => verifyProofFrom proofDb fuel (i + 1) wantHash key

/-- `VerifyProof`: the value proved under the root hash, and the number of proof nodes read. -/
def VerifyProof (rootHash : Tangerine.Common.Hash) (key : Bytes) (proofDb : Bytes → Option Bytes)
    (fuel : Nat) : Option (Except VerifyError (Option Bytes × Nat)) :=
  verifyProofFrom proofDb fuel 0 (hashToBytes rootHash) (keybytesToHex key)

end Tangerine.Trie
