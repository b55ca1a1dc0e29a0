import Tangerine.Proof.Trie.Update
import Tangerine.Proof.Trie.Hashing

/-! The trie in memory refines a finite map from keys to values over every run of calls. -/

namespace Tangerine.Proof.TrieRuns

open Tangerine.Common Tangerine.Trie Tangerine.Library Tangerine.Core.Vm Tangerine.Proof.TrieKeys
  Tangerine.Proof.TrieShape Tangerine.Proof.TrieUpdate Tangerine.Proof.TrieCanonical
  Tangerine.Proof.TrieHashing

/-- The map a trie holds: what its root holds at the HEX key of each key. -/
def contents (t : Trie) : Bytes → Option Bytes := fun key => nodeMap t.root (keybytesToHex key)

/-- What `TryUpdate` sets a key to: the value, or nothing for a value of no bytes. -/
def stored (value : Bytes) : Option Bytes := if value.length ≠ 0 then some value else none

/-- A node holds a map of keys: each key's value at the key's HEX key, and nothing elsewhere. -/
structure Holds (n : Node) (m : Bytes → Option Bytes) : Prop where
  at_key : ∀ key, nodeMap n (keybytesToHex key) = m key
  only_keys : ∀ hex, nodeMap n hex ≠ none → ∃ key, hex = keybytesToHex key

section Holds

variable {n n' : Node} {m : Bytes → Option Bytes}

theorem holds_nil : Holds .nil fun _ => none :=
  ⟨fun _ => rfl, fun _ found => absurd rfl found⟩

/-- Two nodes that hold the same map of keys hold the same map of HEX keys. -/
theorem Holds.nodeMap_eq (holds : Holds n m) (holds' : Holds n' m) : nodeMap n = nodeMap n' := by
  funext hex
  by_cases found : nodeMap n hex = none
  · by_cases found' : nodeMap n' hex = none
    · rw [found, found']
    · obtain ⟨key, rfl⟩ := holds'.only_keys hex found'
      rw [holds.at_key, holds'.at_key]
  · obtain ⟨key, rfl⟩ := holds.only_keys hex found
    rw [holds.at_key, holds'.at_key]

theorem Holds.of_nodeMap (holds : Holds n m) (same : nodeMap n' = nodeMap n) : Holds n' m :=
  ⟨fun key => same ▸ holds.at_key key, fun hex found => holds.only_keys hex (same ▸ found)⟩

/-- A node whose map changed at the HEX key of one key holds the map changed at that key. -/
theorem Holds.update (holds : Holds n m) {key : Bytes} {v : Option Bytes}
    (changed : nodeMap n' = Function.update (nodeMap n) (keybytesToHex key) v) :
    Holds n' (Function.update m key v) := by
  refine ⟨fun probe => ?_, fun hex found => ?_⟩
  · have atKeys : (fun key => nodeMap n (keybytesToHex key)) = m := funext holds.at_key
    rw [changed, Function.update_apply_of_injective _ keybytesToHex_injective, atKeys]
  · rw [changed] at found
    by_cases same : hex = keybytesToHex key
    · exact ⟨key, same⟩
    · rw [Function.update_of_ne same] at found
      exact holds.only_keys hex found

end Holds

open Classical in
/-- The root hash of a map of keys: that of any canonical keyed node that holds it. -/
noncomputable def mapRoot (keccak : Bytes → Bytes) (m : Bytes → Option Bytes) : Tangerine.Common.Hash :=
  if holds : ∃ n, Keyed n ∧ Canonical n ∧ Holds n m then bytesToHash (rootHash keccak holds.choose)
  else emptyRoot

/-- Every canonical keyed node that holds a map has the map's root hash. -/
theorem mapRoot_eq (keccak : Bytes → Bytes) {n : Node} {m : Bytes → Option Bytes} (keyed : Keyed n)
    (canonical : Canonical n) (holds : Holds n m) :
    mapRoot keccak m = bytesToHash (rootHash keccak n) := by
  have exists_holds : ∃ n, Keyed n ∧ Canonical n ∧ Holds n m := ⟨n, keyed, canonical, holds⟩
  obtain ⟨keyed', canonical', holds'⟩ := exists_holds.choose_spec
  rw [mapRoot, dif_pos exists_holds, rootHash_eq_of_nodeMap (.of_keyed keyed' canonical')
    (.of_keyed keyed canonical) (holds'.nodeMap_eq holds)]

/-- What a call that sets a key to `v` leaves of a trie. -/
structure Updated (t : Trie) (key : Bytes) (v : Option Bytes) (t' : Trie) : Prop where
  same : t' = { t with root := t'.root }
  keyed : Keyed t'.root
  canonical : Canonical t.root → Canonical t'.root
  contents_eq : contents t' = Function.update (contents t) key v
  map_eq : nodeMap t'.root = Function.update (nodeMap t.root) (keybytesToHex key) v
  caches : ∀ ok top, CachesBy ok top t.root → CachesBy ok top t'.root

section Calls

variable {t : Trie}

/-- A root whose map changed at the HEX key of one key: the trie's map changed at that key. -/
theorem contents_of_nodeMap {root : Node} {key : Bytes} {v : Option Bytes}
    (changed : nodeMap root = Function.update (nodeMap t.root) (keybytesToHex key) v) :
    contents { t with root := root } = Function.update (contents t) key v := by
  funext probe
  simp only [contents, changed]
  exact Function.update_apply_of_injective (nodeMap t.root) keybytesToHex_injective key v probe

/-- A new root, keyed, canonical if the old one was, with the map changed at one key. -/
theorem updated_of_root {root : Node} {key : Bytes} {v : Option Bytes} (keyed : Keyed root)
    (canonical : Canonical t.root → Canonical root)
    (changed : nodeMap root = Function.update (nodeMap t.root) (keybytesToHex key) v)
    (caches : ∀ ok top, CachesBy ok top t.root → CachesBy ok top root) :
    Updated t key v { t with root := root } :=
  ⟨rfl, keyed, canonical, contents_of_nodeMap changed, changed, caches⟩

theorem TryGet_eq (keyed : Keyed t.root) (key : Bytes) : t.TryGet key = .ok (contents t key, t) := by
  have terminated : Terminated ((keybytesToHex key).drop 0) := by
    simpa using terminated_keybytesToHex key
  have read := tryGet_keyed t keyed terminated
  simp only [List.drop_zero] at read
  simp [Trie.TryGet, read, contents]

theorem TryDelete_updated (keyed : Keyed t.root) (key : Bytes) :
    ∃ t', t.TryDelete key = .ok t' ∧ Updated t key none t' := by
  obtain ⟨dirty, root, deleted, spec⟩ := delete_deleted (t := t) keyed (terminated_keybytesToHex key) []
  exact ⟨_, by simp [Trie.TryDelete, deleted],
    updated_of_root spec.keyed spec.canonical spec.map_eq spec.caches⟩

theorem TryUpdate_updated (keyed : Keyed t.root) (key value : Bytes) :
    ∃ t', t.TryUpdate key value = .ok t' ∧ Updated t key (stored value) t' := by
  by_cases empty : value.length ≠ 0
  · obtain ⟨dirty, root, inserted, spec⟩ :=
      insert_inserted (t := t) keyed (terminated_keybytesToHex key) [] value
    have changed := spec.map_eq
    rw [← show stored value = some value from if_pos empty] at changed
    exact ⟨_, by simp [Trie.TryUpdate, empty, inserted],
      updated_of_root spec.keyed spec.canonical changed spec.caches⟩
  · obtain ⟨dirty, root, deleted, spec⟩ := delete_deleted (t := t) keyed (terminated_keybytesToHex key) []
    have changed := spec.map_eq
    rw [← show stored value = none from if_neg empty] at changed
    exact ⟨_, by simp [Trie.TryUpdate, empty, deleted],
      updated_of_root spec.keyed spec.canonical changed spec.caches⟩

end Calls

/-- What a trie keeps over every run of calls. -/
structure Sound (keccak : Bytes → Bytes) (t : Trie) : Prop where
  keyed : Keyed t.root
  canonical : Canonical t.root
  caches : CachesRight keccak true t.root
  holds : Holds t.root (contents t)

section Sound

variable {keccak : Bytes → Bytes} {t : Trie}

theorem sound_empty (keccak : Bytes → Bytes) (db : Database) : Sound keccak (Trie.empty db) :=
  ⟨trivial, trivial, trivial, holds_nil⟩

theorem Sound.updated (sound : Sound keccak t) {key : Bytes} {v : Option Bytes} {t' : Trie}
    (updated : Updated t key v t') : Sound keccak t' := by
  refine ⟨updated.keyed, updated.canonical sound.canonical, updated.caches _ _ sound.caches, ?_⟩
  rw [updated.contents_eq]
  exact sound.holds.update updated.map_eq

/-- `Hash` on a sound trie returns the root hash of its map. -/
theorem Hash_sound (sound : Sound keccak t) :
    ∃ t', t.Hash keccak = .ok (mapRoot keccak (contents t), t') ∧ contents t' = contents t ∧
      Sound keccak t' := by
  obtain ⟨root, hashed, erased, caches⟩ := Hash_eq sound.caches
  have sameMap : nodeMap root = nodeMap t.root := by
    rw [← nodeMap_eraseFlags root, erased, nodeMap_eraseFlags]
  have sameContents : contents { t with root := root } = contents t := by
    funext key
    simp only [contents, sameMap]
  refine ⟨{ t with root := root }, ?_, sameContents, ?_⟩
  · rw [hashed, mapRoot_eq keccak sound.keyed sound.canonical sound.holds]
  · refine ⟨?_, ?_, caches, ?_⟩
    · exact keyed_eraseFlags.mp (erased ▸ keyed_eraseFlags.mpr sound.keyed)
    · exact canonical_eraseFlags.mp (erased ▸ canonical_eraseFlags.mpr sound.canonical)
    · rw [sameContents]
      exact sound.holds.of_nodeMap sameMap

end Sound

/-- What a call returns: the value `TryGet` read, or the root hash `Hash` computed. -/
inductive Reply where
  | value (v : Option Bytes)
  | root (hash : Tangerine.Common.Hash)

/-- A call on a trie: `TryUpdate`, `TryDelete`, `TryGet` or `Hash`. -/
inductive Call where
  | update (key value : Bytes)
  | delete (key : Bytes)
  | get (key : Bytes)
  | hash

/-- A call run on a trie: the trie it leaves, and what it returned. -/
def Call.run (keccak : Bytes → Bytes) (t : Trie) : Call → Except TrieError (Trie × Option Reply)
  | .update key value => (t.TryUpdate key value).map fun t' => (t', none)
  | .delete key => (t.TryDelete key).map fun t' => (t', none)
  | .get key => (t.TryGet key).map fun (value, t') => (t', some (.value value))
  | .hash => (t.Hash keccak).map fun (root, t') => (t', some (.root root))

/-- Calls run in order: the trie they leave, and what each `TryGet` and `Hash` returned. -/
def runCalls (keccak : Bytes → Bytes) (t : Trie) : List Call → Except TrieError (Trie × List Reply)
  | [] => .ok (t, [])
  | call :: calls =>
    match Call.run keccak t call with
    | .error err => .error err
    | .ok (t', got) =>
      match runCalls keccak t' calls with
      | .error err => .error err
      | .ok (t'', gots) => .ok (t'', got.toList ++ gots)

/-- A call on a map from keys to values: the map it leaves, and what it returns. -/
noncomputable def Call.apply (keccak : Bytes → Bytes) (m : Bytes → Option Bytes) :
    Call → (Bytes → Option Bytes) × Option Reply
  | .update key value => (Function.update m key (stored value), none)
  | .delete key => (Function.update m key none, none)
  | .get key => (m, some (.value (m key)))
  | .hash => (m, some (.root (mapRoot keccak m)))

/-- Calls on a map in order: the map they leave, and what each read and root hash returned. -/
noncomputable def applyCalls (keccak : Bytes → Bytes) (m : Bytes → Option Bytes) :
    List Call → (Bytes → Option Bytes) × List Reply
  | [] => (m, [])
  | call :: calls =>
    let (m', got) := Call.apply keccak m call
    let (m'', gots) := applyCalls keccak m' calls
    (m'', got.toList ++ gots)

section Refines

variable {keccak : Bytes → Bytes}

/-- One call on a sound trie does on its map what the call does on a map. -/
theorem Call.run_refines {t : Trie} (sound : Sound keccak t) (call : Call) :
    ∃ t', Call.run keccak t call = .ok (t', (Call.apply keccak (contents t) call).2) ∧
      contents t' = (Call.apply keccak (contents t) call).1 ∧ Sound keccak t' := by
  cases call with
  | update key value =>
    obtain ⟨t', updated, spec⟩ := TryUpdate_updated sound.keyed key value
    exact ⟨t', by rw [Call.run, updated]; rfl, spec.contents_eq, sound.updated spec⟩
  | delete key =>
    obtain ⟨t', deleted, spec⟩ := TryDelete_updated sound.keyed key
    exact ⟨t', by rw [Call.run, deleted]; rfl, spec.contents_eq, sound.updated spec⟩
  | get key =>
    exact ⟨t, by rw [Call.run, TryGet_eq sound.keyed]; rfl, rfl, sound⟩
  | hash =>
    obtain ⟨t', hashed, sameContents, sound'⟩ := Hash_sound sound
    exact ⟨t', by rw [Call.run, hashed]; rfl, sameContents, sound'⟩

/-- Every sequence of calls on a sound trie does on its map what the calls do on a map. -/
theorem runCalls_refines {t : Trie} (sound : Sound keccak t) (calls : List Call) :
    ∃ t', runCalls keccak t calls = .ok (t', (applyCalls keccak (contents t) calls).2) ∧
      contents t' = (applyCalls keccak (contents t) calls).1 ∧ Sound keccak t' := by
  induction calls generalizing t with
  | nil => exact ⟨t, rfl, rfl, sound⟩
  | cons call calls inductionHypothesis =>
    obtain ⟨t', ran, mapEq, sound'⟩ := Call.run_refines sound call
    obtain ⟨t'', rest, mapEq', sound''⟩ := inductionHypothesis sound'
    refine ⟨t'', ?_, ?_, sound''⟩
    · simp only [runCalls, ran, rest, applyCalls, mapEq]
    · simp only [applyCalls, mapEq', mapEq]

end Refines

/-- From the empty trie, every sequence of calls succeeds and refines the map the calls build. -/
theorem runCalls_empty (keccak : Bytes → Bytes) (db : Database) (calls : List Call) :
    ∃ t', runCalls keccak (Trie.empty db) calls =
        .ok (t', (applyCalls keccak (fun _ => none) calls).2) ∧
      contents t' = (applyCalls keccak (fun _ => none) calls).1 ∧ Keyed t'.root ∧ Canonical t'.root := by
  obtain ⟨t', ran, mapEq, sound⟩ := runCalls_refines (sound_empty keccak db) calls
  exact ⟨t', ran, mapEq, sound.keyed, sound.canonical⟩

/-- The root hash depends on the map alone, whatever the calls that built it. -/
theorem Hash_history_independent (keccak : Bytes → Bytes) (db db' : Database)
    (calls calls' : List Call)
    (same : (applyCalls keccak (fun _ => none) calls).1 = (applyCalls keccak (fun _ => none) calls').1) :
    ∃ t t' root, (runCalls keccak (Trie.empty db) calls).map Prod.fst = .ok t ∧
      (runCalls keccak (Trie.empty db') calls').map Prod.fst = .ok t' ∧
      (t.Hash keccak).map Prod.fst = .ok root ∧ (t'.Hash keccak).map Prod.fst = .ok root := by
  obtain ⟨t, ran, mapEq, sound⟩ := runCalls_refines (sound_empty keccak db) calls
  obtain ⟨t', ran', mapEq', sound'⟩ := runCalls_refines (sound_empty keccak db') calls'
  obtain ⟨u, hashed, -, -⟩ := Hash_sound sound
  obtain ⟨u', hashed', -, -⟩ := Hash_sound sound'
  have sameContents : contents t' = contents t := by
    rw [mapEq, mapEq']
    exact same.symm
  refine ⟨t, t', mapRoot keccak (contents t), by rw [ran]; rfl, by rw [ran']; rfl,
    by rw [hashed]; rfl, ?_⟩
  rw [hashed', sameContents]
  rfl

/-- Two keys set in either order, over any hash function: the same root hash. -/
theorem Hash_history_independent_swapped :
    (applyCalls (fun data => data) (fun _ => none) [.update [1] [2], .update [3] [4]]).1 =
        (applyCalls (fun data => data) (fun _ => none) [.update [3] [4], .update [1] [2]]).1 ∧
      ∃ t t' root,
        (runCalls (fun data => data) (Trie.empty .empty) [.update [1] [2], .update [3] [4]]).map
          Prod.fst = .ok t ∧
        (runCalls (fun data => data) (Trie.empty .empty) [.update [3] [4], .update [1] [2]]).map
          Prod.fst = .ok t' ∧
        (t.Hash fun data => data).map Prod.fst = .ok root ∧
        (t'.Hash fun data => data).map Prod.fst = .ok root := by
  have same : (applyCalls (fun data => data) (fun _ => none) [.update [1] [2], .update [3] [4]]).1 =
      (applyCalls (fun data => data) (fun _ => none) [.update [3] [4], .update [1] [2]]).1 := by
    simp only [applyCalls, Call.apply, stored]
    exact Function.update_comm (by decide) _ _ _
  exact ⟨same, Hash_history_independent _ _ _ _ _ same⟩

end Tangerine.Proof.TrieRuns
