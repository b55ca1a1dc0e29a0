import Tangerine.Dex.PeerSet
import Tangerine.Library.Transition

/-! The direct and group connections of the peer set (`dex/peer.go`) over every run of calls. -/

namespace Tangerine.Proof.PeerConnections

open Tangerine.Dex Tangerine.Dex.PeerSet Tangerine.Library

/-- `ps` holds `id` under `label`: as a node of a set connected directly, or as a group peer. -/
def Holds (ps : PeerSet) (id : String) (label : PeerLabel) : Prop :=
  (label ∈ ps.directConn ∧ id ∈ ps.nodesOf label) ∨ id ∈ ps.groupOf label

/-- `allDirectPeers` gives each node exactly the labels `target` gives it. -/
structure Reflects (ps : PeerSet) (target : String → PeerLabel → Prop) : Prop where
  exact : ∀ id label, label ∈ holdersOf ps.allDirectPeers id ↔ target id label
  noEmpty : NoEmpty ps.allDirectPeers

/-- How often the server was told to add the node `id`. -/
def adds (ps : PeerSet) (id : String) : Nat := ps.calls.count (.addDirectPeer (some id))

/-- How often the server was told to remove the node `id`. -/
def removes (ps : PeerSet) (id : String) : Nat := ps.calls.count (.removeDirectPeer (some id))

/-- The server was told to add each node of `allDirectPeers` once more than to remove it. -/
structure Logged (ps : PeerSet) : Prop where
  balanced : Balanced (adds ps) (removes ps) ps.allDirectPeers
  named : ServerCall.addDirectPeer none ∉ ps.calls ∧ ServerCall.removeDirectPeer none ∉ ps.calls

/-- The label maps: connected labels have their nodes, never both ways, groups are small. -/
structure Shaped (ps : PeerSet) : Prop where
  directLabelled : ∀ label ∈ ps.directConn, label ∈ ps.label2Nodes
  groupLabelled : ∀ label ∈ ps.groupConnPeers, label ∈ ps.label2Nodes
  apart : ∀ label ∈ ps.directConn, label ∉ ps.groupConnPeers
  grouped : ∀ label id, id ∈ ps.groupOf label → id ∈ ps.nodesOf label
  bounded : ∀ label, (ps.groupOf label).keys.length ≤ groupConnNum

/-- What every call of the peer set keeps. -/
structure Tracked (ps : PeerSet) : Prop where
  reflects : Reflects ps (Holds ps)
  logged : Logged ps
  shaped : Shaped ps

theorem Reflects.congr {ps : PeerSet} {target target' : String → PeerLabel → Prop}
    (reflects : Reflects ps target) (same : ∀ id label, target id label ↔ target' id label) :
    Reflects ps target' :=
  ⟨fun id label => (reflects.exact id label).trans (same id label), reflects.noEmpty⟩

/-- Two peer sets that differ at most in `allDirectPeers` and the calls. -/
structure SameLabels (ps' ps : PeerSet) : Prop where
  label2Nodes : ps'.label2Nodes = ps.label2Nodes
  directConn : ps'.directConn = ps.directConn
  groupConnPeers : ps'.groupConnPeers = ps.groupConnPeers

theorem SameLabels.refl (ps : PeerSet) : SameLabels ps ps := ⟨rfl, rfl, rfl⟩

theorem SameLabels.trans {ps'' ps' ps : PeerSet} (later : SameLabels ps'' ps')
    (earlier : SameLabels ps' ps) : SameLabels ps'' ps :=
  ⟨later.1.trans earlier.1, later.2.trans earlier.2, later.3.trans earlier.3⟩

theorem SameLabels.nodesOf {ps' ps : PeerSet} (same : SameLabels ps' ps) : ps'.nodesOf = ps.nodesOf := by
  funext label
  rw [PeerSet.nodesOf, PeerSet.nodesOf, same.label2Nodes]

theorem SameLabels.groupOf {ps' ps : PeerSet} (same : SameLabels ps' ps) : ps'.groupOf = ps.groupOf := by
  funext label
  rw [PeerSet.groupOf, PeerSet.groupOf, same.groupConnPeers]

/-- The labels a peer set holds its nodes under are read off its three label maps. -/
theorem SameLabels.holds {ps' ps : PeerSet} (same : SameLabels ps' ps) : Holds ps' = Holds ps := by
  funext id label
  rw [Holds, Holds, same.nodesOf, same.groupOf, same.directConn]

theorem Reflects.of_allDirectPeers {ps ps' : PeerSet} {target : String → PeerLabel → Prop}
    (reflects : Reflects ps target) (same : ps'.allDirectPeers = ps.allDirectPeers) :
    Reflects ps' target := by
  obtain ⟨exact, noEmpty⟩ := reflects
  exact ⟨by rw [same]; exact exact, by rw [same]; exact noEmpty⟩

theorem Logged.of_same {ps ps' : PeerSet} (logged : Logged ps)
    (peers : ps'.allDirectPeers = ps.allDirectPeers) (calls : ps'.calls = ps.calls) : Logged ps' := by
  obtain ⟨balanced, named⟩ := logged
  refine ⟨?_, by rw [calls]; exact named⟩
  intro id
  rw [adds, removes, calls, peers]
  exact balanced id

theorem Shaped.congr {ps ps' : PeerSet} (shaped : Shaped ps) (same : SameLabels ps' ps) :
    Shaped ps' := by
  obtain ⟨directLabelled, groupLabelled, apart, grouped, bounded⟩ := shaped
  refine ⟨?_, ?_, ?_, ?_, ?_⟩
  · rw [same.directConn, same.label2Nodes]
    exact directLabelled
  · rw [same.groupConnPeers, same.label2Nodes]
    exact groupLabelled
  · rw [same.directConn, same.groupConnPeers]
    exact apart
  · rw [same.nodesOf, same.groupOf]
    exact grouped
  · rw [same.groupOf]
    exact bounded

theorem mem_shuffle_ids {V : Type} (shuffle : Shuffle) (nodes : AList fun _ : String => V)
    (id : String) : id ∈ shuffle.ids nodes.keys ↔ id ∈ nodes :=
  (shuffle.ids_perm _).mem_iff

theorem length_keys_insert_le {V : Type} (peers : AList fun _ : String => V) (id : String) (value : V) :
    (peers.insert id value).keys.length ≤ peers.keys.length + 1 := by
  rw [AList.keys_insert, List.length_cons]
  exact Nat.succ_le_succ (List.length_erase_le)

theorem length_keys_erase_le {V : Type} (peers : AList fun _ : String => V) (id : String) :
    (peers.erase id).keys.length ≤ peers.keys.length := by
  rw [AList.keys_erase]
  exact List.length_erase_le

theorem tracked_newPeerSet : Tracked newPeerSet where
  reflects :=
    ⟨fun id label => by simp [Holds, holdersOf, newPeerSet, nodesOf, groupOf], noEmpty_empty⟩
  logged := ⟨fun id => by simp [adds, removes, newPeerSet], by simp [newPeerSet]⟩
  shaped := ⟨by simp [newPeerSet], by simp [newPeerSet], by simp [newPeerSet],
    by simp [newPeerSet, groupOf], by simp [newPeerSet, groupOf]⟩

/-! ### Reading the label maps -/

theorem nodesOf_insert (ps : PeerSet) (label label' : PeerLabel)
    (nodes : AList fun _ : String => Unit) :
    nodesOf { ps with label2Nodes := ps.label2Nodes.insert label nodes } label' =
      if label' = label then nodes else ps.nodesOf label' := by
  by_cases same : label' = label
  · rw [if_pos same, same, nodesOf, AList.lookup_insert]
    rfl
  · rw [if_neg same, nodesOf, AList.lookup_insert_ne same]
    rfl

theorem nodesOf_erase (ps : PeerSet) (label label' : PeerLabel) :
    nodesOf { ps with label2Nodes := ps.label2Nodes.erase label } label' =
      if label' = label then ∅ else ps.nodesOf label' := by
  by_cases same : label' = label
  · rw [if_pos same, same, nodesOf, AList.lookup_erase]
    rfl
  · rw [if_neg same, nodesOf, AList.lookup_erase_ne same]
    rfl

theorem groupOf_insert (ps : PeerSet) (label label' : PeerLabel)
    (peers : AList fun _ : String => Int) :
    groupOf { ps with groupConnPeers := ps.groupConnPeers.insert label peers } label' =
      if label' = label then peers else ps.groupOf label' := by
  by_cases same : label' = label
  · rw [if_pos same, same, groupOf, AList.lookup_insert]
    rfl
  · rw [if_neg same, groupOf, AList.lookup_insert_ne same]
    rfl

theorem groupOf_erase (ps : PeerSet) (label label' : PeerLabel) :
    groupOf { ps with groupConnPeers := ps.groupConnPeers.erase label } label' =
      if label' = label then ∅ else ps.groupOf label' := by
  by_cases same : label' = label
  · rw [if_pos same, same, groupOf, AList.lookup_erase]
    rfl
  · rw [if_neg same, groupOf, AList.lookup_erase_ne same]
    rfl

/-- A label the peer set does not group by has no group peers. -/
theorem groupOf_of_not_mem {ps : PeerSet} {label : PeerLabel} (absent : label ∉ ps.groupConnPeers) :
    ps.groupOf label = ∅ := by
  rw [groupOf, AList.lookup_eq_none.mpr absent]
  rfl

/-- A label not connected directly holds only its group peers. -/
theorem holds_of_undirected {ps : PeerSet} {label : PeerLabel} (undirected : label ∉ ps.directConn)
    (id : String) : Holds ps id label ↔ id ∈ ps.groupOf label := by
  rw [Holds]
  exact or_iff_right fun direct => undirected direct.1

/-- A label without a group holds only the nodes of its set, and only when connected directly. -/
theorem holds_of_ungrouped {ps : PeerSet} {label : PeerLabel} (ungrouped : label ∉ ps.groupConnPeers)
    (id : String) : Holds ps id label ↔ label ∈ ps.directConn ∧ id ∈ ps.nodesOf label := by
  rw [Holds, groupOf_of_not_mem ungrouped]
  exact or_iff_left (AList.notMem_empty id)

/-- A label with neither kind of connection holds no node. -/
theorem not_holds {ps : PeerSet} {label : PeerLabel} (undirected : label ∉ ps.directConn)
    (ungrouped : label ∉ ps.groupConnPeers) (id : String) : ¬Holds ps id label := by
  rw [holds_of_undirected undirected, groupOf_of_not_mem ungrouped]
  exact AList.notMem_empty id

/-! ### Changing the maps at one label -/

section Labels

variable (ps : PeerSet) (label : PeerLabel) (id : String) (label' : PeerLabel)

theorem holds_insertDirect :
    Holds { ps with directConn := ps.directConn.insert label () } id label' ↔
      if label' = label then id ∈ ps.nodesOf label ∨ id ∈ ps.groupOf label else Holds ps id label' := by
  show (label' ∈ ps.directConn.insert label () ∧ id ∈ ps.nodesOf label') ∨ id ∈ ps.groupOf label' ↔ _
  rw [AList.mem_insert]
  by_cases same : label' = label
  · rw [if_pos same, same, eq_self_iff_true, true_or, true_and]
  · rw [if_neg same, Holds, or_iff_right same]

theorem holds_eraseDirect :
    Holds { ps with directConn := ps.directConn.erase label } id label' ↔
      if label' = label then id ∈ ps.groupOf label else Holds ps id label' := by
  show (label' ∈ ps.directConn.erase label ∧ id ∈ ps.nodesOf label') ∨ id ∈ ps.groupOf label' ↔ _
  rw [AList.mem_erase]
  by_cases same : label' = label
  · rw [if_pos same, same, ne_eq, eq_self_iff_true, not_true_eq_false, false_and, false_and, false_or]
  · rw [if_neg same, Holds, and_iff_right same]

theorem holds_setGroup (peers : AList fun _ : String => Int) :
    Holds { ps with groupConnPeers := ps.groupConnPeers.insert label peers } id label' ↔
      if label' = label then (label ∈ ps.directConn ∧ id ∈ ps.nodesOf label) ∨ id ∈ peers
      else Holds ps id label' := by
  rw [Holds, groupOf_insert]
  by_cases same : label' = label
  · rw [if_pos same, if_pos same, same]
    rfl
  · rw [if_neg same, if_neg same]
    rfl

theorem holds_eraseGroup :
    Holds { ps with groupConnPeers := ps.groupConnPeers.erase label } id label' ↔
      if label' = label then label ∈ ps.directConn ∧ id ∈ ps.nodesOf label else Holds ps id label' := by
  rw [Holds, groupOf_erase]
  by_cases same : label' = label
  · rw [if_pos same, if_pos same, same, or_iff_left (AList.notMem_empty id)]
    rfl
  · rw [if_neg same, if_neg same]
    rfl

theorem holds_insertLabel (nodes : AList fun _ : String => Unit) :
    Holds { ps with label2Nodes := ps.label2Nodes.insert label nodes } id label' ↔
      if label' = label then (label ∈ ps.directConn ∧ id ∈ nodes) ∨ id ∈ ps.groupOf label
      else Holds ps id label' := by
  rw [Holds, nodesOf_insert]
  by_cases same : label' = label
  · rw [if_pos same, if_pos same, same]
    rfl
  · rw [if_neg same, if_neg same]
    rfl

theorem holds_eraseLabel :
    Holds { ps with label2Nodes := ps.label2Nodes.erase label } id label' ↔
      if label' = label then id ∈ ps.groupOf label else Holds ps id label' := by
  rw [Holds, nodesOf_erase]
  by_cases same : label' = label
  · have unheld : ¬(label ∈ ps.directConn ∧ id ∈ (∅ : AList fun _ : String => Unit)) :=
      fun held => AList.notMem_empty id held.2
    rw [if_pos same, if_pos same, same, or_iff_right unheld]
    rfl
  · rw [if_neg same, if_neg same]
    rfl

variable {ps label}

theorem Shaped.insertDirect (shaped : Shaped ps) (labelled : label ∈ ps.label2Nodes)
    (ungrouped : label ∉ ps.groupConnPeers) :
    Shaped { ps with directConn := ps.directConn.insert label () } where
  directLabelled label' member := by
    rcases (AList.mem_insert _).mp member with rfl | old
    · exact labelled
    · exact shaped.directLabelled label' old
  groupLabelled := shaped.groupLabelled
  apart label' member := by
    rcases (AList.mem_insert _).mp member with rfl | old
    · exact ungrouped
    · exact shaped.apart label' old
  grouped := shaped.grouped
  bounded := shaped.bounded

theorem Shaped.eraseDirect (shaped : Shaped ps) :
    Shaped { ps with directConn := ps.directConn.erase label } where
  directLabelled label' member := shaped.directLabelled label' (AList.mem_erase.mp member).2
  groupLabelled := shaped.groupLabelled
  apart label' member := shaped.apart label' (AList.mem_erase.mp member).2
  grouped := shaped.grouped
  bounded := shaped.bounded

theorem Shaped.setGroup (shaped : Shaped ps) (labelled : label ∈ ps.label2Nodes)
    (undirected : label ∉ ps.directConn) {peers : AList fun _ : String => Int}
    (nodes : ∀ id ∈ peers, id ∈ ps.nodesOf label) (few : peers.keys.length ≤ groupConnNum) :
    Shaped { ps with groupConnPeers := ps.groupConnPeers.insert label peers } where
  directLabelled := shaped.directLabelled
  groupLabelled label' member := by
    rcases (AList.mem_insert _).mp member with rfl | old
    · exact labelled
    · exact shaped.groupLabelled label' old
  apart label' member grouped := by
    rcases (AList.mem_insert _).mp grouped with rfl | old
    · exact undirected member
    · exact shaped.apart label' member old
  grouped label' id member := by
    rw [groupOf_insert] at member
    split at member
    · rename_i same
      rw [same]
      exact nodes id member
    · exact shaped.grouped label' id member
  bounded label' := by
    rw [groupOf_insert]
    split
    · exact few
    · exact shaped.bounded label'

theorem Shaped.eraseGroup (shaped : Shaped ps) :
    Shaped { ps with groupConnPeers := ps.groupConnPeers.erase label } where
  directLabelled := shaped.directLabelled
  groupLabelled label' member := shaped.groupLabelled label' (AList.mem_erase.mp member).2
  apart label' member grouped := shaped.apart label' member (AList.mem_erase.mp grouped).2
  grouped label' id member := by
    rw [groupOf_erase] at member
    split at member
    · exact absurd member (AList.notMem_empty id)
    · exact shaped.grouped label' id member
  bounded label' := by
    rw [groupOf_erase]
    split
    · exact Nat.zero_le _
    · exact shaped.bounded label'

theorem Shaped.insertLabel (shaped : Shaped ps) (absent : label ∉ ps.label2Nodes)
    (nodes : AList fun _ : String => Unit) :
    Shaped { ps with label2Nodes := ps.label2Nodes.insert label nodes } where
  directLabelled label' member := (AList.mem_insert _).mpr (Or.inr (shaped.directLabelled label' member))
  groupLabelled label' member := (AList.mem_insert _).mpr (Or.inr (shaped.groupLabelled label' member))
  apart := shaped.apart
  grouped label' id member := by
    rw [nodesOf_insert]
    split
    · rename_i same
      have ungrouped : label ∉ ps.groupConnPeers := fun grouped => absent (shaped.groupLabelled label grouped)
      have grouped : id ∈ ps.groupOf label := same ▸ member
      rw [groupOf_of_not_mem ungrouped] at grouped
      exact absurd grouped (AList.notMem_empty id)
    · exact shaped.grouped label' id member
  bounded := shaped.bounded

theorem Shaped.eraseLabel (shaped : Shaped ps) (undirected : label ∉ ps.directConn)
    (ungrouped : label ∉ ps.groupConnPeers) :
    Shaped { ps with label2Nodes := ps.label2Nodes.erase label } where
  directLabelled label' member := AList.mem_erase.mpr
    ⟨fun same => undirected (same ▸ member), shaped.directLabelled label' member⟩
  groupLabelled label' member := AList.mem_erase.mpr
    ⟨fun same => ungrouped (same ▸ member), shaped.groupLabelled label' member⟩
  apart := shaped.apart
  grouped label' id member := by
    rw [nodesOf_erase]
    split
    · rename_i same
      have grouped : id ∈ ps.groupOf label := same ▸ member
      rw [groupOf_of_not_mem ungrouped] at grouped
      exact absurd grouped (AList.notMem_empty id)
    · exact shaped.grouped label' id member
  bounded := shaped.bounded

end Labels

/-! ### One node at a time -/

section Helpers

variable (ps : PeerSet) (id : String) (label : PeerLabel)

theorem sameLabels_addDirectPeer : SameLabels (ps.addDirectPeer id label) ps := ⟨rfl, rfl, rfl⟩

theorem sameLabels_removeDirectPeer : SameLabels (ps.removeDirectPeer id label) ps := ⟨rfl, rfl, rfl⟩

variable {ps id label}

theorem Reflects.addDirectPeer {target : String → PeerLabel → Prop} (reflects : Reflects ps target) :
    Reflects (ps.addDirectPeer id label) (fun id' label' => target id' label' ∨ (id' = id ∧ label' = label)) where
  exact id' label' := by
    show label' ∈ holdersOf (acquire ps.allDirectPeers id label).1 id' ↔ _
    rw [holdersOf_acquire]
    by_cases same : id' = id
    · rw [if_pos same, Finset.mem_insert, ← same, reflects.exact, or_comm]
      simp only [true_and]
    · rw [if_neg same, reflects.exact]
      simp only [same, false_and, or_false]
  noEmpty := reflects.noEmpty.acquire id label

theorem Reflects.removeDirectPeer {target : String → PeerLabel → Prop} (reflects : Reflects ps target) :
    Reflects (ps.removeDirectPeer id label)
      (fun id' label' => target id' label' ∧ ¬(id' = id ∧ label' = label)) where
  exact id' label' := by
    show label' ∈ holdersOf (release ps.allDirectPeers id label).1 id' ↔ _
    rw [holdersOf_release]
    by_cases same : id' = id
    · rw [if_pos same, Finset.mem_erase, ← same, reflects.exact, and_comm]
      simp only [true_and]
    · rw [if_neg same, reflects.exact]
      simp only [same, false_and, not_false_eq_true, and_true]
  noEmpty := reflects.noEmpty.release id label

theorem calls_addDirectPeer (node : id ∈ ps.nodesOf label) :
    (ps.addDirectPeer id label).calls =
      if (acquire ps.allDirectPeers id label).2 then ps.calls ++ [.addDirectPeer (some id)]
      else ps.calls := by
  rw [PeerSet.addDirectPeer, nodeAt, if_pos node]

theorem calls_removeDirectPeer (node : id ∈ ps.nodesOf label) :
    (ps.removeDirectPeer id label).calls =
      if (release ps.allDirectPeers id label).2 then ps.calls ++ [.removeDirectPeer (some id)]
      else ps.calls := by
  rw [PeerSet.removeDirectPeer, nodeAt, if_pos node]

/-- A call appended when `flag` holds is counted once more, every other call as often. -/
theorem count_appended {calls calls' : List ServerCall} {flag : Bool} {call : ServerCall}
    (appended : calls' = if flag then calls ++ [call] else calls) (call' : ServerCall) :
    calls'.count call' = calls.count call' + if flag = true ∧ call = call' then 1 else 0 := by
  rw [appended]
  by_cases flagged : flag = true
  · rw [if_pos flagged, List.count_append, List.count_singleton]
    by_cases same : call = call'
    · rw [same, if_pos (beq_self_eq_true call'), if_pos ⟨flagged, rfl⟩]
    · rw [if_neg (fun equal : (call == call') = true => same (beq_iff_eq.mp equal)),
        if_neg (fun both => same both.2)]
  · rw [if_neg flagged, if_neg (fun both => flagged both.1), Nat.add_zero]

theorem adds_addDirectPeer (node : id ∈ ps.nodesOf label) (id' : String) :
    adds (ps.addDirectPeer id label) id' =
      adds ps id' + if (acquire ps.allDirectPeers id label).2 = true ∧ id' = id then 1 else 0 := by
  have same : ServerCall.addDirectPeer (some id) = .addDirectPeer (some id') ↔ id' = id := by
    simp [eq_comm]
  rw [adds, adds, count_appended (calls_addDirectPeer node)]
  simp only [same]

theorem removes_addDirectPeer (node : id ∈ ps.nodesOf label) (id' : String) :
    removes (ps.addDirectPeer id label) id' = removes ps id' := by
  have other : ¬((acquire ps.allDirectPeers id label).2 = true ∧
      ServerCall.addDirectPeer (some id) = .removeDirectPeer (some id')) := fun both => by
    simp at both
  rw [removes, removes, count_appended (calls_addDirectPeer node), if_neg other, Nat.add_zero]

theorem adds_removeDirectPeer (node : id ∈ ps.nodesOf label) (id' : String) :
    adds (ps.removeDirectPeer id label) id' = adds ps id' := by
  have other : ¬((release ps.allDirectPeers id label).2 = true ∧
      ServerCall.removeDirectPeer (some id) = .addDirectPeer (some id')) := fun both => by
    simp at both
  rw [adds, adds, count_appended (calls_removeDirectPeer node), if_neg other, Nat.add_zero]

theorem removes_removeDirectPeer (node : id ∈ ps.nodesOf label) (id' : String) :
    removes (ps.removeDirectPeer id label) id' =
      removes ps id' + if (release ps.allDirectPeers id label).2 = true ∧ id' = id then 1 else 0 := by
  have same : ServerCall.removeDirectPeer (some id) = .removeDirectPeer (some id') ↔ id' = id := by
    simp [eq_comm]
  rw [removes, removes, count_appended (calls_removeDirectPeer node)]
  simp only [same]

/-- A call appended to the calls of the server when `flag` holds, named by its node. -/
theorem Logged.append {ps' : PeerSet} (logged : Logged ps) {flag : Bool} (call : ServerCall)
    (appended : ps'.calls = if flag then ps.calls ++ [call] else ps.calls)
    (named : call ≠ .addDirectPeer none ∧ call ≠ .removeDirectPeer none) :
    ServerCall.addDirectPeer none ∉ ps'.calls ∧ ServerCall.removeDirectPeer none ∉ ps'.calls := by
  rw [appended]
  split
  · rw [List.mem_append, List.mem_append, List.mem_singleton, List.mem_singleton]
    exact ⟨fun found => found.elim logged.named.1 (fun same => named.1 same.symm),
      fun found => found.elim logged.named.2 (fun same => named.2 same.symm)⟩
  · exact logged.named

/-- Adding a node of the label's set keeps the calls on the server counted. -/
theorem Logged.addDirectPeer (logged : Logged ps) (noEmpty : NoEmpty ps.allDirectPeers)
    (node : id ∈ ps.nodesOf label) : Logged (ps.addDirectPeer id label) := by
  refine ⟨fun id' => ?_, logged.append _ (calls_addDirectPeer node) ⟨by simp, by simp⟩⟩
  rw [adds_addDirectPeer node, removes_addDirectPeer node]
  exact logged.balanced.acquire id label noEmpty id'

/-- Removing a node of the label's set keeps the calls on the server counted. -/
theorem Logged.removeDirectPeer (logged : Logged ps) (noEmpty : NoEmpty ps.allDirectPeers)
    (node : id ∈ ps.nodesOf label) : Logged (ps.removeDirectPeer id label) := by
  refine ⟨fun id' => ?_, logged.append _ (calls_removeDirectPeer node) ⟨by simp, by simp⟩⟩
  rw [adds_removeDirectPeer node, removes_removeDirectPeer node]
  exact logged.balanced.release id label noEmpty id'

end Helpers

/-! ### Loops over the nodes of a label -/

section Loops

variable (label : PeerLabel)

theorem sameLabels_foldl_addDirectPeer (ids : List String) (ps : PeerSet) :
    SameLabels (ids.foldl (fun ps id => ps.addDirectPeer id label) ps) ps := by
  have preserved : ∀ current id, SameLabels current ps →
      SameLabels (current.addDirectPeer id label) ps :=
    fun current id same => (sameLabels_addDirectPeer current id label).trans same
  exact foldl_invariant preserved ids (SameLabels.refl ps)

theorem sameLabels_foldl_removeDirectPeer (ids : List String) (ps : PeerSet) :
    SameLabels (ids.foldl (fun ps id => ps.removeDirectPeer id label) ps) ps := by
  have preserved : ∀ current id, SameLabels current ps →
      SameLabels (current.removeDirectPeer id label) ps :=
    fun current id same => (sameLabels_removeDirectPeer current id label).trans same
  exact foldl_invariant preserved ids (SameLabels.refl ps)

/-- Adding the nodes of a list under `label`, one by one, gives each of them `label`. -/
theorem foldl_addDirectPeer_spec (ids : List String) {ps : PeerSet}
    {target : String → PeerLabel → Prop} (reflects : Reflects ps target) (logged : Logged ps)
    (nodes : ∀ id ∈ ids, id ∈ ps.nodesOf label) :
    Reflects (ids.foldl (fun ps id => ps.addDirectPeer id label) ps)
        (fun id' label' => target id' label' ∨ (id' ∈ ids ∧ label' = label)) ∧
      Logged (ids.foldl (fun ps id => ps.addDirectPeer id label) ps) := by
  induction ids generalizing ps target with
  | nil => exact ⟨reflects.congr (fun id' label' => by simp), logged⟩
  | cons id ids inductionHypothesis =>
      rw [List.foldl_cons]
      have node := nodes id List.mem_cons_self
      obtain ⟨reflects', logged'⟩ := inductionHypothesis reflects.addDirectPeer
        (logged.addDirectPeer reflects.noEmpty node)
        (fun id' member => nodes id' (List.mem_cons_of_mem _ member))
      refine ⟨reflects'.congr fun id' label' => ?_, logged'⟩
      simp only [List.mem_cons]
      constructor
      · rintro ((held | ⟨rfl, rfl⟩) | ⟨member, rfl⟩)
        · exact Or.inl held
        · exact Or.inr ⟨Or.inl rfl, rfl⟩
        · exact Or.inr ⟨Or.inr member, rfl⟩
      · rintro (held | ⟨rfl | member, rfl⟩)
        · exact Or.inl (Or.inl held)
        · exact Or.inl (Or.inr ⟨rfl, rfl⟩)
        · exact Or.inr ⟨member, rfl⟩

/-- Removing the nodes of a list from `label`, one by one, takes `label` from each of them. -/
theorem foldl_removeDirectPeer_spec (ids : List String) {ps : PeerSet}
    {target : String → PeerLabel → Prop} (reflects : Reflects ps target) (logged : Logged ps)
    (nodes : ∀ id ∈ ids, id ∈ ps.nodesOf label) :
    Reflects (ids.foldl (fun ps id => ps.removeDirectPeer id label) ps)
        (fun id' label' => target id' label' ∧ ¬(id' ∈ ids ∧ label' = label)) ∧
      Logged (ids.foldl (fun ps id => ps.removeDirectPeer id label) ps) := by
  induction ids generalizing ps target with
  | nil => exact ⟨reflects.congr (fun id' label' => by simp), logged⟩
  | cons id ids inductionHypothesis =>
      rw [List.foldl_cons]
      have node := nodes id List.mem_cons_self
      obtain ⟨reflects', logged'⟩ := inductionHypothesis reflects.removeDirectPeer
        (logged.removeDirectPeer reflects.noEmpty node)
        (fun id' member => nodes id' (List.mem_cons_of_mem _ member))
      refine ⟨reflects'.congr fun id' label' => ?_, logged'⟩
      simp only [List.mem_cons, not_and, or_imp]
      exact and_assoc

end Loops

/-! ### Connecting and forgetting the nodes of a label -/

section Connections

variable (shuffle : Shuffle) (label : PeerLabel)

theorem Shaped.not_mem_directConn {ps : PeerSet} (shaped : Shaped ps) (absent : label ∉ ps.label2Nodes) :
    label ∉ ps.directConn :=
  fun direct => absent (shaped.directLabelled label direct)

theorem Shaped.not_mem_groupConnPeers {ps : PeerSet} (shaped : Shaped ps)
    (absent : label ∉ ps.label2Nodes) : label ∉ ps.groupConnPeers :=
  fun grouped => absent (shaped.groupLabelled label grouped)

theorem sameLabels_buildDirectConn (ps : PeerSet) :
    SameLabels (ps.buildDirectConn shuffle label) { ps with directConn := ps.directConn.insert label () } :=
  sameLabels_foldl_addDirectPeer label _ _

theorem sameLabels_forgetDirectConn (ps : PeerSet) :
    SameLabels (ps.forgetDirectConn shuffle label) { ps with directConn := ps.directConn.erase label } := by
  have same := sameLabels_foldl_removeDirectPeer label (shuffle.ids (ps.nodesOf label).keys) ps
  exact ⟨same.label2Nodes, congrArg (AList.erase label) same.directConn, same.groupConnPeers⟩

theorem sameLabels_forgetGroupConn (ps : PeerSet) :
    SameLabels (ps.forgetGroupConn shuffle label)
      { ps with groupConnPeers := ps.groupConnPeers.erase label } := by
  have same := sameLabels_foldl_removeDirectPeer label (shuffle.ids (ps.groupOf label).keys) ps
  exact ⟨same.label2Nodes, same.directConn, congrArg (AList.erase label) same.groupConnPeers⟩

section Specs

variable {ps : PeerSet} {target : String → PeerLabel → Prop}

theorem buildDirectConn_spec (reflects : Reflects ps target) (logged : Logged ps) :
    Reflects (ps.buildDirectConn shuffle label)
        (fun id' label' => target id' label' ∨ (id' ∈ ps.nodesOf label ∧ label' = label)) ∧
      Logged (ps.buildDirectConn shuffle label) := by
  have connectedReflects : Reflects { ps with directConn := ps.directConn.insert label () } target :=
    reflects.of_allDirectPeers rfl
  have spec := foldl_addDirectPeer_spec label (shuffle.ids (ps.nodesOf label).keys) connectedReflects
    (logged.of_same rfl rfl) (fun id member => (mem_shuffle_ids shuffle _ id).mp member)
  refine ⟨spec.1.congr fun id' label' => ?_, spec.2⟩
  exact or_congr_right (and_congr_left fun _ => mem_shuffle_ids shuffle _ id')

theorem forgetDirectConn_spec (reflects : Reflects ps target) (logged : Logged ps) :
    Reflects (ps.forgetDirectConn shuffle label)
        (fun id' label' => target id' label' ∧ ¬(id' ∈ ps.nodesOf label ∧ label' = label)) ∧
      Logged (ps.forgetDirectConn shuffle label) := by
  have spec := foldl_removeDirectPeer_spec label (shuffle.ids (ps.nodesOf label).keys) reflects logged
    (fun id member => (mem_shuffle_ids shuffle _ id).mp member)
  refine ⟨(spec.1.congr fun id' label' => ?_).of_allDirectPeers rfl, spec.2.of_same rfl rfl⟩
  exact and_congr_right fun _ => not_congr (and_congr_left fun _ => mem_shuffle_ids shuffle _ id')

/-- `forgetGroupConn` releases the group peers, which are nodes of the label's set. -/
theorem forgetGroupConn_spec (reflects : Reflects ps target) (logged : Logged ps)
    (nodes : ∀ id ∈ ps.groupOf label, id ∈ ps.nodesOf label) :
    Reflects (ps.forgetGroupConn shuffle label)
        (fun id' label' => target id' label' ∧ ¬(id' ∈ ps.groupOf label ∧ label' = label)) ∧
      Logged (ps.forgetGroupConn shuffle label) := by
  have spec := foldl_removeDirectPeer_spec label (shuffle.ids (ps.groupOf label).keys) reflects logged
    (fun id member => nodes id ((mem_shuffle_ids shuffle _ id).mp member))
  refine ⟨(spec.1.congr fun id' label' => ?_).of_allDirectPeers rfl, spec.2.of_same rfl rfl⟩
  exact and_congr_right fun _ => not_congr (and_congr_left fun _ => mem_shuffle_ids shuffle _ id')

end Specs

/-- What the loop of `buildGroupConn` keeps on the group built so far and the peer set. -/
structure GroupBuilt (ps : PeerSet) (target : String → PeerLabel → Prop)
    (built : (AList fun _ : String => Int) × PeerSet) : Prop where
  nodes : ∀ id ∈ built.1, id ∈ ps.nodesOf label
  reflects : Reflects built.2 (fun id' label' => target id' label' ∨ (id' ∈ built.1 ∧ label' = label))
  logged : Logged built.2
  same : SameLabels built.2 ps

theorem groupBuilt_empty {ps : PeerSet} {target : String → PeerLabel → Prop}
    (reflects : Reflects ps target) (logged : Logged ps) : GroupBuilt label ps target (∅, ps) where
  nodes id member := absurd member (AList.notMem_empty id)
  reflects := reflects.congr fun id' _ =>
    (or_iff_left fun added => AList.notMem_empty id' added.1).symm
  logged := logged
  same := SameLabels.refl ps

theorem GroupBuilt.insert {ps : PeerSet} {target : String → PeerLabel → Prop}
    {built : (AList fun _ : String => Int) × PeerSet} (grown : GroupBuilt label ps target built)
    {id : String} (node : id ∈ ps.nodesOf label) (now : Int) :
    GroupBuilt label ps target (built.1.insert id now, built.2.addDirectPeer id label) where
  nodes id' member := by
    rcases (AList.mem_insert _).mp member with rfl | old
    · exact node
    · exact grown.nodes id' old
  reflects := grown.reflects.addDirectPeer.congr fun id' label' => by
    rw [AList.mem_insert, or_assoc, ← or_and_right]
    exact or_congr_right (and_congr_left fun _ => or_comm)
  logged := grown.logged.addDirectPeer grown.reflects.noEmpty (by rw [grown.same.nodesOf]; exact node)
  same := (sameLabels_addDirectPeer _ _ _).trans grown.same

theorem buildGroupStep_eq (now : Int) (built : (AList fun _ : String => Int) × PeerSet) (id : String) :
    buildGroupStep label now built id =
      if (built.1.insert id now).keys.length ≥ groupConnNum then
        .exit (built.1.insert id now, built.2.addDirectPeer id label)
      else .next (built.1.insert id now, built.2.addDirectPeer id label) := rfl

/-- The loop of `buildGroupConn` stops once the group has `groupConnNum` peers. -/
theorem buildGroupConn_spec (now : Int) {ps : PeerSet} {target : String → PeerLabel → Prop}
    (reflects : Reflects ps target) (logged : Logged ps) :
    ∃ built : (AList fun _ : String => Int) × PeerSet, GroupBuilt label ps target built ∧
      built.1.keys.length ≤ groupConnNum ∧
      ps.buildGroupConn shuffle label now =
        { built.2 with groupConnPeers := built.2.groupConnPeers.insert label built.1 } := by
  let built := forBreak (buildGroupStep label now) (shuffle.ids (ps.nodesOf label).keys) (∅, ps)
  have loop : GroupBuilt label ps target built ∧ built.1.keys.length ≤ groupConnNum := by
    apply forBreak_spec (fun current => GroupBuilt label ps target current ∧ current.1.keys.length < groupConnNum)
      (fun current => GroupBuilt label ps target current ∧ current.1.keys.length ≤ groupConnNum)
    · rintro current id member ⟨grown, room⟩
      have grown' := grown.insert label ((mem_shuffle_ids shuffle _ id).mp member) now
      have longer := length_keys_insert_le current.1 id now
      rw [buildGroupStep_eq]
      by_cases full : (current.1.insert id now).keys.length ≥ groupConnNum
      · rw [if_pos full]
        refine ⟨grown', ?_⟩
        show (current.1.insert id now).keys.length ≤ groupConnNum
        omega
      · rw [if_neg full]
        refine ⟨grown', ?_⟩
        show (current.1.insert id now).keys.length < groupConnNum
        omega
    · exact fun current kept => ⟨kept.1, kept.2.le⟩
    · refine ⟨groupBuilt_empty label reflects logged, ?_⟩
      show (∅ : AList fun _ : String => Int).keys.length < groupConnNum
      decide
  exact ⟨built, loop.1, loop.2, rfl⟩

end Connections

/-! ### What the helpers keep -/

section Keeping

variable (shuffle : Shuffle) (label : PeerLabel) {ps : PeerSet}

/-- A new label joins `label2Nodes` with no connection yet. -/
theorem Tracked.insertLabel (tracked : Tracked ps) (absent : label ∉ ps.label2Nodes)
    (nodes : AList fun _ : String => Unit) :
    Tracked { ps with label2Nodes := ps.label2Nodes.insert label nodes } := by
  have undirected := tracked.shaped.not_mem_directConn label absent
  have ungrouped := tracked.shaped.not_mem_groupConnPeers label absent
  refine ⟨(tracked.reflects.congr fun id label' => ?_).of_allDirectPeers rfl,
    tracked.logged.of_same rfl rfl, tracked.shaped.insertLabel absent nodes⟩
  rw [holds_insertLabel]
  by_cases atLabel : label' = label
  · rw [if_pos atLabel, atLabel, groupOf_of_not_mem ungrouped]
    refine iff_of_false (not_holds undirected ungrouped id) ?_
    rintro (direct | grouped)
    · exact undirected direct.1
    · exact AList.notMem_empty id grouped
  · rw [if_neg atLabel]

/-- A label with neither kind of connection leaves `label2Nodes`. -/
theorem Tracked.eraseLabel (tracked : Tracked ps) (undirected : label ∉ ps.directConn)
    (ungrouped : label ∉ ps.groupConnPeers) :
    Tracked { ps with label2Nodes := ps.label2Nodes.erase label } := by
  refine ⟨(tracked.reflects.congr fun id label' => ?_).of_allDirectPeers rfl,
    tracked.logged.of_same rfl rfl, tracked.shaped.eraseLabel undirected ungrouped⟩
  rw [holds_eraseLabel]
  by_cases atLabel : label' = label
  · rw [if_pos atLabel, atLabel, groupOf_of_not_mem ungrouped]
    exact iff_of_false (not_holds undirected ungrouped id) (AList.notMem_empty id)
  · rw [if_neg atLabel]

theorem Tracked.buildDirectConn (tracked : Tracked ps) (labelled : label ∈ ps.label2Nodes)
    (ungrouped : label ∉ ps.groupConnPeers) : Tracked (ps.buildDirectConn shuffle label) := by
  have same := sameLabels_buildDirectConn shuffle label ps
  obtain ⟨reflects, logged⟩ := buildDirectConn_spec shuffle label tracked.reflects tracked.logged
  refine ⟨reflects.congr fun id label' => ?_, logged,
    (tracked.shaped.insertDirect labelled ungrouped).congr same⟩
  rw [same.holds, holds_insertDirect, groupOf_of_not_mem ungrouped]
  by_cases atLabel : label' = label
  · rw [if_pos atLabel, atLabel, or_iff_left (AList.notMem_empty id), holds_of_ungrouped ungrouped]
    constructor
    · rintro (held | added)
      · exact held.2
      · exact added.1
    · exact fun node => Or.inr ⟨node, rfl⟩
  · rw [if_neg atLabel]
    exact or_iff_left fun added => atLabel added.2

theorem Tracked.forgetDirectConn (tracked : Tracked ps) (ungrouped : label ∉ ps.groupConnPeers) :
    Tracked (ps.forgetDirectConn shuffle label) := by
  have same := sameLabels_forgetDirectConn shuffle label ps
  obtain ⟨reflects, logged⟩ := forgetDirectConn_spec shuffle label tracked.reflects tracked.logged
  refine ⟨reflects.congr fun id label' => ?_, logged, tracked.shaped.eraseDirect.congr same⟩
  rw [same.holds, holds_eraseDirect, groupOf_of_not_mem ungrouped]
  by_cases atLabel : label' = label
  · rw [if_pos atLabel, atLabel, holds_of_ungrouped ungrouped]
    exact iff_of_false (fun held => held.2 ⟨held.1.2, rfl⟩) (AList.notMem_empty id)
  · rw [if_neg atLabel]
    exact and_iff_left fun removed => atLabel removed.2

theorem Tracked.forgetGroupConn (tracked : Tracked ps) (undirected : label ∉ ps.directConn) :
    Tracked (ps.forgetGroupConn shuffle label) := by
  have same := sameLabels_forgetGroupConn shuffle label ps
  obtain ⟨reflects, logged⟩ := forgetGroupConn_spec shuffle label tracked.reflects tracked.logged
    (tracked.shaped.grouped label)
  refine ⟨reflects.congr fun id label' => ?_, logged, tracked.shaped.eraseGroup.congr same⟩
  rw [same.holds, holds_eraseGroup]
  by_cases atLabel : label' = label
  · rw [if_pos atLabel, atLabel, holds_of_undirected undirected]
    exact iff_of_false (fun held => held.2 ⟨held.1, rfl⟩) (fun direct => undirected direct.1)
  · rw [if_neg atLabel]
    exact and_iff_left fun removed => atLabel removed.2

/-- A group is built only for a label of `label2Nodes` with neither kind of connection. -/
theorem Tracked.buildGroupConn (now : Int) (tracked : Tracked ps) (labelled : label ∈ ps.label2Nodes)
    (undirected : label ∉ ps.directConn) (ungrouped : label ∉ ps.groupConnPeers) :
    Tracked (ps.buildGroupConn shuffle label now) := by
  obtain ⟨built, grown, few, result⟩ :=
    buildGroupConn_spec shuffle label now tracked.reflects tracked.logged
  have same := grown.same
  rw [result]
  refine ⟨(grown.reflects.congr fun id label' => ?_).of_allDirectPeers rfl,
    grown.logged.of_same rfl rfl, ?_⟩
  · rw [holds_setGroup, same.holds, same.directConn]
    by_cases atLabel : label' = label
    · rw [if_pos atLabel, atLabel, or_iff_right (not_holds undirected ungrouped id),
        or_iff_right (fun direct => undirected direct.1), and_iff_left rfl]
    · rw [if_neg atLabel]
      exact or_iff_left fun added => atLabel added.2
  · apply (tracked.shaped.congr same).setGroup
    · rw [same.label2Nodes]
      exact labelled
    · rw [same.directConn]
      exact undirected
    · rw [same.nodesOf]
      exact grown.nodes
    · exact few

end Keeping

/-! ### `ForgetConnection` -/

section ForgetConnection

variable (shuffle : Shuffle) (round : Nat)

theorem mem_shuffle_labels {V : Type} (labels : AList fun _ : PeerLabel => V) (label : PeerLabel) :
    label ∈ shuffle.labels labels.keys ↔ label ∈ labels :=
  (shuffle.labels_perm _).mem_iff

theorem nodup_shuffle_labels {V : Type} (labels : AList fun _ : PeerLabel => V) :
    (shuffle.labels labels.keys).Nodup :=
  (shuffle.labels_perm _).nodup_iff.mpr labels.keys_nodup

/-- A loop of `ForgetConnection` erases exactly the labels of rounds up to `round`. -/
theorem lookup_foldl_forgetting {V : Type} (view : PeerSet → AList fun _ : PeerLabel => V)
    {step : PeerSet → PeerLabel → PeerSet}
    (erases : ∀ ps label,
      view (step ps label) = if label.round ≤ round then (view ps).erase label else view ps)
    (ps : PeerSet) (label : PeerLabel) :
    (view ((shuffle.labels (view ps).keys).foldl step ps)).lookup label =
      if label.round ≤ round then none else (view ps).lookup label := by
  rw [lookup_foldl_of_erasing view (fun label => label.round ≤ round) erases
    (nodup_shuffle_labels shuffle _)]
  by_cases low : label.round ≤ round
  · by_cases member : label ∈ view ps
    · rw [if_pos ⟨low, (mem_shuffle_labels shuffle _ label).mpr member⟩, if_pos low]
    · rw [if_pos low, AList.lookup_eq_none.mpr member]
      split <;> rfl
  · rw [if_neg (fun gone => low gone.1), if_neg low]

/-- `Holds` at a label reads the three maps at that label only. -/
theorem holds_iff_lookup (ps : PeerSet) (id : String) (label : PeerLabel) :
    Holds ps id label ↔ ((ps.directConn.lookup label).isSome ∧ id ∈ (ps.label2Nodes.lookup label).getD ∅) ∨
      id ∈ (ps.groupConnPeers.lookup label).getD ∅ := by
  rw [Holds, PeerSet.nodesOf, PeerSet.groupOf, AList.lookup_isSome]

section Steps

variable (ps : PeerSet) (label : PeerLabel)

theorem directConn_forgetDirectStep :
    (forgetDirectStep shuffle round ps label).directConn =
      if label.round ≤ round then ps.directConn.erase label else ps.directConn := by
  unfold forgetDirectStep
  split
  · exact (sameLabels_forgetDirectConn shuffle label ps).directConn
  · rfl

theorem groupConnPeers_forgetDirectStep :
    (forgetDirectStep shuffle round ps label).groupConnPeers = ps.groupConnPeers := by
  unfold forgetDirectStep
  split
  · exact (sameLabels_forgetDirectConn shuffle label ps).groupConnPeers
  · rfl

theorem label2Nodes_forgetDirectStep :
    (forgetDirectStep shuffle round ps label).label2Nodes = ps.label2Nodes := by
  unfold forgetDirectStep
  split
  · exact (sameLabels_forgetDirectConn shuffle label ps).label2Nodes
  · rfl

theorem groupConnPeers_forgetGroupStep :
    (forgetGroupStep shuffle round ps label).groupConnPeers =
      if label.round ≤ round then ps.groupConnPeers.erase label else ps.groupConnPeers := by
  unfold forgetGroupStep
  split
  · exact (sameLabels_forgetGroupConn shuffle label ps).groupConnPeers
  · rfl

theorem directConn_forgetGroupStep :
    (forgetGroupStep shuffle round ps label).directConn = ps.directConn := by
  unfold forgetGroupStep
  split
  · exact (sameLabels_forgetGroupConn shuffle label ps).directConn
  · rfl

theorem label2Nodes_forgetGroupStep :
    (forgetGroupStep shuffle round ps label).label2Nodes = ps.label2Nodes := by
  unfold forgetGroupStep
  split
  · exact (sameLabels_forgetGroupConn shuffle label ps).label2Nodes
  · rfl

theorem label2Nodes_forgetLabelStep :
    (forgetLabelStep round ps label).label2Nodes =
      if label.round ≤ round then ps.label2Nodes.erase label else ps.label2Nodes := by
  unfold forgetLabelStep
  split <;> rfl

theorem sameConnections_forgetLabelStep :
    (forgetLabelStep round ps label).directConn = ps.directConn ∧
      (forgetLabelStep round ps label).groupConnPeers = ps.groupConnPeers := by
  unfold forgetLabelStep
  split <;> exact ⟨rfl, rfl⟩

end Steps

variable {ps : PeerSet} {labels : List PeerLabel}

/-- The first loop forgets direct connections only, of labels without a group. -/
theorem tracked_foldl_forgetDirectStep (tracked : Tracked ps)
    (direct : ∀ label ∈ labels, label ∈ ps.directConn) :
    Tracked (labels.foldl (forgetDirectStep shuffle round) ps) := by
  have preserved : ∀ current label, label ∈ labels →
      Tracked current ∧ current.groupConnPeers = ps.groupConnPeers →
      Tracked (forgetDirectStep shuffle round current label) ∧
        (forgetDirectStep shuffle round current label).groupConnPeers = ps.groupConnPeers := by
    rintro current label member ⟨trackedNow, groups⟩
    rw [groupConnPeers_forgetDirectStep]
    refine ⟨?_, groups⟩
    unfold forgetDirectStep
    split
    · apply trackedNow.forgetDirectConn
      rw [groups]
      exact tracked.shaped.apart label (direct label member)
    · exact trackedNow
  exact (foldl_invariant_of_mem preserved ⟨tracked, rfl⟩).1

/-- The second loop forgets groups only, of labels not connected directly. -/
theorem tracked_foldl_forgetGroupStep (tracked : Tracked ps)
    (grouped : ∀ label ∈ labels, label ∈ ps.groupConnPeers) :
    Tracked (labels.foldl (forgetGroupStep shuffle round) ps) := by
  have preserved : ∀ current label, label ∈ labels →
      Tracked current ∧ current.directConn = ps.directConn →
      Tracked (forgetGroupStep shuffle round current label) ∧
        (forgetGroupStep shuffle round current label).directConn = ps.directConn := by
    rintro current label member ⟨trackedNow, direct⟩
    rw [directConn_forgetGroupStep]
    refine ⟨?_, direct⟩
    unfold forgetGroupStep
    split
    · apply trackedNow.forgetGroupConn
      rw [direct]
      exact fun connected => tracked.shaped.apart label connected (grouped label member)
    · exact trackedNow
  exact (foldl_invariant_of_mem preserved ⟨tracked, rfl⟩).1

/-- The third loop erases labels that neither kind of connection uses any more. -/
theorem tracked_foldl_forgetLabelStep (tracked : Tracked ps)
    (free : ∀ label ∈ labels, label.round ≤ round →
      label ∉ ps.directConn ∧ label ∉ ps.groupConnPeers) :
    Tracked (labels.foldl (forgetLabelStep round) ps) := by
  have preserved : ∀ current label, label ∈ labels →
      Tracked current ∧ current.directConn = ps.directConn ∧ current.groupConnPeers = ps.groupConnPeers →
      Tracked (forgetLabelStep round current label) ∧
        (forgetLabelStep round current label).directConn = ps.directConn ∧
        (forgetLabelStep round current label).groupConnPeers = ps.groupConnPeers := by
    rintro current label member ⟨trackedNow, direct, groups⟩
    obtain ⟨sameDirect, sameGroups⟩ := sameConnections_forgetLabelStep round current label
    rw [sameDirect, sameGroups]
    refine ⟨?_, direct, groups⟩
    unfold forgetLabelStep
    split
    · rename_i low
      obtain ⟨undirected, ungrouped⟩ := free label member low
      rw [← direct] at undirected
      rw [← groups] at ungrouped
      exact trackedNow.eraseLabel label undirected ungrouped
    · exact trackedNow
  exact (foldl_invariant_of_mem preserved ⟨tracked, rfl, rfl⟩).1

/-- `ForgetConnection` drops the connections of the rounds up to `round`, then their sets. -/
theorem forgetConnection_eq (ps : PeerSet) : ∃ second : PeerSet,
    ps.forgetConnection shuffle round =
      (shuffle.labels second.label2Nodes.keys).foldl (forgetLabelStep round) second ∧
    second.label2Nodes = ps.label2Nodes ∧
    (∀ label, second.directConn.lookup label =
      if label.round ≤ round then none else ps.directConn.lookup label) ∧
    (∀ label, second.groupConnPeers.lookup label =
      if label.round ≤ round then none else ps.groupConnPeers.lookup label) ∧
    (Tracked ps → Tracked second) := by
  obtain ⟨first, firstIs⟩ : ∃ first,
      first = (shuffle.labels ps.directConn.keys).foldl (forgetDirectStep shuffle round) ps := ⟨_, rfl⟩
  have firstGroups : first.groupConnPeers = ps.groupConnPeers := by
    rw [firstIs]
    exact foldl_preserves PeerSet.groupConnPeers (groupConnPeers_forgetDirectStep shuffle round) _ ps
  have firstNodes : first.label2Nodes = ps.label2Nodes := by
    rw [firstIs]
    exact foldl_preserves PeerSet.label2Nodes (label2Nodes_forgetDirectStep shuffle round) _ ps
  refine ⟨(shuffle.labels first.groupConnPeers.keys).foldl (forgetGroupStep shuffle round) first,
    by rw [firstIs]; rfl, ?_, fun label => ?_, fun label => ?_, fun tracked => ?_⟩
  · rw [foldl_preserves PeerSet.label2Nodes (label2Nodes_forgetGroupStep shuffle round), firstNodes]
  · rw [foldl_preserves PeerSet.directConn (directConn_forgetGroupStep shuffle round), firstIs,
      lookup_foldl_forgetting shuffle round PeerSet.directConn (directConn_forgetDirectStep shuffle round)]
  · rw [lookup_foldl_forgetting shuffle round PeerSet.groupConnPeers
      (groupConnPeers_forgetGroupStep shuffle round), firstGroups]
  · have trackedFirst : Tracked first := by
      rw [firstIs]
      exact tracked_foldl_forgetDirectStep shuffle round tracked
        (fun label member => (mem_shuffle_labels shuffle _ label).mp member)
    exact tracked_foldl_forgetGroupStep shuffle round trackedFirst
      (fun label member => (mem_shuffle_labels shuffle _ label).mp member)

/-- After `ForgetConnection` a node is held under the labels of later rounds only. -/
theorem holds_forgetConnection (ps : PeerSet) (id : String) (label : PeerLabel) :
    Holds (ps.forgetConnection shuffle round) id label ↔ round < label.round ∧ Holds ps id label := by
  obtain ⟨second, result, secondNodes, secondDirect, secondGroups, -⟩ := forgetConnection_eq shuffle round ps
  have sameConnections : ∀ current label, (forgetLabelStep round current label).directConn =
      current.directConn ∧ (forgetLabelStep round current label).groupConnPeers = current.groupConnPeers :=
    sameConnections_forgetLabelStep round
  rw [result, holds_iff_lookup, holds_iff_lookup,
    foldl_preserves PeerSet.directConn (fun current label => (sameConnections current label).1),
    foldl_preserves PeerSet.groupConnPeers (fun current label => (sameConnections current label).2),
    lookup_foldl_forgetting shuffle round PeerSet.label2Nodes (label2Nodes_forgetLabelStep round),
    secondDirect, secondGroups, secondNodes]
  by_cases low : label.round ≤ round
  · rw [if_pos low, if_pos low, if_pos low]
    exact iff_of_false (fun held => by simp at held) (fun kept => Nat.not_le_of_lt kept.1 low)
  · rw [if_neg low, if_neg low, if_neg low, and_iff_right (Nat.lt_of_not_le low)]

/-- `ForgetConnection` keeps what every call keeps. -/
theorem tracked_forgetConnection (tracked : Tracked ps) : Tracked (ps.forgetConnection shuffle round) := by
  obtain ⟨second, result, -, secondDirect, secondGroups, trackedSecond⟩ := forgetConnection_eq shuffle round ps
  rw [result]
  apply tracked_foldl_forgetLabelStep round (trackedSecond tracked)
  intro label _ low
  rw [← AList.lookup_isSome, ← AList.lookup_isSome, secondDirect, secondGroups, if_pos low, if_pos low]
  exact ⟨Bool.false_ne_true, Bool.false_ne_true⟩

end ForgetConnection

/-! ### The other calls -/

section Calls

variable (shuffle : Shuffle) {ps : PeerSet}

/-- `ForgetLabelConnection` forgets `label` whichever way it was connected. -/
theorem Tracked.forgetLabelConnection (label : PeerLabel) (tracked : Tracked ps) :
    Tracked (ps.forgetLabelConnection shuffle label) := by
  obtain ⟨direct, directIs⟩ : ∃ direct, direct = ps.forgetDirectConn shuffle label := ⟨_, rfl⟩
  obtain ⟨grouped, groupedIs⟩ : ∃ grouped, grouped = direct.forgetGroupConn shuffle label := ⟨_, rfl⟩
  have result : ps.forgetLabelConnection shuffle label =
      { grouped with label2Nodes := grouped.label2Nodes.erase label } := by
    rw [groupedIs, directIs]
    rfl
  have sameDirect : SameLabels direct { ps with directConn := ps.directConn.erase label } :=
    directIs ▸ sameLabels_forgetDirectConn shuffle label ps
  have sameGrouped : SameLabels grouped
      { direct with groupConnPeers := direct.groupConnPeers.erase label } :=
    groupedIs ▸ sameLabels_forgetGroupConn shuffle label direct
  obtain ⟨reflectsDirect, loggedDirect⟩ :=
    forgetDirectConn_spec shuffle label tracked.reflects tracked.logged
  rw [← directIs] at reflectsDirect loggedDirect
  have groupNodes : ∀ id ∈ direct.groupOf label, id ∈ direct.nodesOf label := by
    rw [sameDirect.groupOf, sameDirect.nodesOf]
    exact tracked.shaped.grouped label
  obtain ⟨reflectsGrouped, loggedGrouped⟩ :=
    forgetGroupConn_spec shuffle label reflectsDirect loggedDirect groupNodes
  rw [← groupedIs] at reflectsGrouped loggedGrouped
  have undirected : label ∉ grouped.directConn := by
    rw [sameGrouped.directConn]
    show label ∉ direct.directConn
    rw [sameDirect.directConn]
    exact fun member => (AList.mem_erase.mp member).1 rfl
  have ungrouped : label ∉ grouped.groupConnPeers := by
    rw [sameGrouped.groupConnPeers]
    exact fun member => (AList.mem_erase.mp member).1 rfl
  rw [result]
  refine ⟨(reflectsGrouped.congr fun id label' => ?_).of_allDirectPeers rfl,
    loggedGrouped.of_same rfl rfl,
    ((tracked.shaped.eraseDirect.congr sameDirect).eraseGroup.congr sameGrouped).eraseLabel
      undirected ungrouped⟩
  by_cases atLabel : label' = label
  · rw [atLabel]
    refine iff_of_false ?_
      (@not_holds { grouped with label2Nodes := grouped.label2Nodes.erase label } label
        undirected ungrouped id)
    rintro ⟨⟨held, notDirect⟩, notGrouped⟩
    rcases held with connected | group
    · exact notDirect ⟨connected.2, rfl⟩
    · exact notGrouped ⟨by rw [sameDirect.groupOf]; exact group, rfl⟩
  · rw [and_iff_left (fun removed => atLabel removed.2), and_iff_left (fun removed => atLabel removed.2),
      holds_eraseLabel, if_neg atLabel, sameGrouped.holds, holds_eraseGroup, if_neg atLabel,
      sameDirect.holds, holds_eraseDirect, if_neg atLabel]

/-- `BuildConnection` connects a round's notary set directly or by a group. -/
theorem Tracked.buildConnection {notarySet : Except String (List String)}
    {newEmptyNode : String → Except String String} {selfID : String} {now : Int} {round : Nat}
    {ps' : PeerSet} (tracked : Tracked ps)
    (built : ps.buildConnection shuffle notarySet newEmptyNode selfID now round = .ok ps') :
    Tracked ps' := by
  unfold PeerSet.buildConnection at built
  dsimp only at built
  split at built
  · cases built
    exact tracked
  · rename_i absent
    split at built
    · cases built
      exact tracked
    · rw [except_bind_eq_ok] at built
      obtain ⟨nodes, _, connected⟩ := built
      have inserted := tracked.insertLabel _ absent nodes
      have labelled : ⟨SetType.notaryset, round⟩ ∈ ps.label2Nodes.insert ⟨.notaryset, round⟩ nodes :=
        (AList.mem_insert _).mpr (Or.inl rfl)
      have undirected := tracked.shaped.not_mem_directConn _ absent
      have ungrouped := tracked.shaped.not_mem_groupConnPeers _ absent
      split at connected
      · cases connected
        exact inserted.buildDirectConn shuffle _ labelled ungrouped
      · cases connected
        exact inserted.buildGroupConn shuffle _ now labelled undirected ungrouped

/-- What `EnsureGroupConn` keeps besides `Tracked`. -/
structure Regrouped (ps' ps : PeerSet) : Prop where
  tracked : Tracked ps'
  groups : ∀ label, label ∈ ps'.groupConnPeers ↔ label ∈ ps.groupConnPeers
  nodes : ps'.label2Nodes = ps.label2Nodes

theorem Regrouped.refl (tracked : Tracked ps) : Regrouped ps ps := ⟨tracked, fun _ => Iff.rfl, rfl⟩

theorem Regrouped.trans {ps'' ps' : PeerSet} (later : Regrouped ps'' ps') (earlier : Regrouped ps' ps) :
    Regrouped ps'' ps :=
  ⟨later.tracked, fun label => (later.groups label).trans (earlier.groups label),
    later.nodes.trans earlier.nodes⟩

theorem Regrouped.nodesOf {ps' : PeerSet} (regrouped : Regrouped ps' ps) : ps'.nodesOf = ps.nodesOf := by
  funext label
  rw [PeerSet.nodesOf, PeerSet.nodesOf, regrouped.nodes]

/-- Resetting the group of a label grouped by keeps the labels grouped by. -/
theorem groups_setGroup {label : PeerLabel} (grouped : label ∈ ps.groupConnPeers)
    (peers : AList fun _ : String => Int) (label' : PeerLabel) :
    label' ∈ ps.groupConnPeers.insert label peers ↔ label' ∈ ps.groupConnPeers := by
  rw [AList.mem_insert]
  exact ⟨fun member => member.elim (fun same => same ▸ grouped) id, Or.inr⟩

section Ensure

variable (label : PeerLabel)

/-- One peer of a group dropped by `EnsureGroupConn`. -/
theorem regrouped_dropPeer (tracked : Tracked ps) (grouped : label ∈ ps.groupConnPeers) {id : String}
    (node : id ∈ ps.nodesOf label) :
    Regrouped { ps.removeDirectPeer id label with
      groupConnPeers := (ps.removeDirectPeer id label).groupConnPeers.insert label
        (((ps.removeDirectPeer id label).groupOf label).erase id) } ps := by
  have undirected : label ∉ ps.directConn := fun direct => tracked.shaped.apart label direct grouped
  have same := sameLabels_removeDirectPeer ps id label
  refine ⟨⟨(tracked.reflects.removeDirectPeer.congr fun id' label' => ?_).of_allDirectPeers rfl,
    (tracked.logged.removeDirectPeer tracked.reflects.noEmpty node).of_same rfl rfl, ?_⟩,
    groups_setGroup grouped _, rfl⟩
  · rw [holds_setGroup, same.holds, same.groupOf, same.directConn, same.nodesOf]
    by_cases atLabel : label' = label
    · rw [if_pos atLabel, atLabel, holds_of_undirected undirected, AList.mem_erase,
        or_iff_right (not_and_of_not_left _ undirected)]
      exact ⟨fun kept => ⟨fun same => kept.2 ⟨same, rfl⟩, kept.1⟩,
        fun kept => ⟨kept.2, fun removed => kept.1 removed.1⟩⟩
    · rw [if_neg atLabel]
      exact and_iff_left fun removed => atLabel removed.2
  · apply (tracked.shaped.congr same).setGroup
    · exact tracked.shaped.groupLabelled label grouped
    · exact undirected
    · intro id' member
      rw [same.groupOf] at member
      rw [same.nodesOf]
      exact tracked.shaped.grouped label id' (AList.mem_erase.mp member).2
    · rw [same.groupOf]
      exact (length_keys_erase_le _ _).trans (tracked.shaped.bounded label)

/-- One peer added to a group by `EnsureGroupConn`, while the group has room. -/
theorem regrouped_topUp (now : Int) (tracked : Tracked ps) (grouped : label ∈ ps.groupConnPeers)
    {id : String} (node : id ∈ ps.nodesOf label) (room : (ps.groupOf label).keys.length < groupConnNum) :
    Regrouped ({ ps with
      groupConnPeers := ps.groupConnPeers.insert label ((ps.groupOf label).insert id now) }.addDirectPeer
        id label) ps := by
  have undirected : label ∉ ps.directConn := fun direct => tracked.shaped.apart label direct grouped
  obtain ⟨topped, toppedIs⟩ : ∃ topped : PeerSet, topped =
      { ps with groupConnPeers := ps.groupConnPeers.insert label ((ps.groupOf label).insert id now) } :=
    ⟨_, rfl⟩
  have reflects : Reflects topped (Holds ps) := tracked.reflects.of_allDirectPeers (by rw [toppedIs])
  have logged : Logged topped := tracked.logged.of_same (by rw [toppedIs]) (by rw [toppedIs])
  have toppedNode : id ∈ topped.nodesOf label := by
    rw [toppedIs]
    exact node
  have same := sameLabels_addDirectPeer topped id label
  rw [← toppedIs]
  refine ⟨⟨reflects.addDirectPeer.congr fun id' label' => ?_,
    logged.addDirectPeer reflects.noEmpty toppedNode, ?_⟩, ?_, by rw [toppedIs]; rfl⟩
  · rw [same.holds, toppedIs, holds_setGroup]
    by_cases atLabel : label' = label
    · rw [if_pos atLabel, atLabel, holds_of_undirected undirected, AList.mem_insert,
        or_iff_right (not_and_of_not_left _ undirected), and_iff_left rfl, or_comm]
    · rw [if_neg atLabel]
      exact or_iff_left fun added => atLabel added.2
  · apply Shaped.congr _ same
    rw [toppedIs]
    apply tracked.shaped.setGroup (tracked.shaped.groupLabelled label grouped) undirected
    · intro id' member
      rcases (AList.mem_insert _).mp member with rfl | old
      · exact node
      · exact tracked.shaped.grouped label id' old
    · exact Nat.le_trans (length_keys_insert_le _ _ _) room
  · intro label'
    rw [same.groupConnPeers, toppedIs]
    exact groups_setGroup grouped _ label'

/-- The loop of `EnsureGroupConn` that drops the peers that timed out. -/
theorem regrouped_dropTimedOut (registered : String → Bool) (clock : String → Int)
    (tracked : Tracked ps) (grouped : label ∈ ps.groupConnPeers) :
    Regrouped (ps.dropTimedOut shuffle registered clock label) ps := by
  unfold PeerSet.dropTimedOut
  dsimp only
  refine @foldl_invariant_of_mem _ _ (fun current => Regrouped current ps) _ _ ?_ ps
    (Regrouped.refl tracked)
  intro current id member regrouped
  split
  · have node : id ∈ current.nodesOf label := by
      rw [regrouped.nodesOf]
      exact tracked.shaped.grouped label id ((mem_shuffle_ids shuffle _ id).mp member)
    exact (regrouped_dropPeer label regrouped.tracked ((regrouped.groups label).mpr grouped) node).trans
      regrouped
  · exact regrouped

theorem topUpStep_eq (now : Int) (ps : PeerSet) (id : String) :
    topUpStep label now ps id =
      if (ps.groupOf label).keys.length ≥ groupConnNum then .exit ps
      else
        .next ({ ps with
          groupConnPeers := ps.groupConnPeers.insert label ((ps.groupOf label).insert id now) }.addDirectPeer
            id label) := rfl

/-- The loop of `EnsureGroupConn` that tops a group up to `groupConnNum` peers. -/
theorem regrouped_topUpLoop (now : Int) (tracked : Tracked ps) (grouped : label ∈ ps.groupConnPeers) :
    Regrouped (forBreak (topUpStep label now) (shuffle.ids (ps.nodesOf label).keys) ps) ps := by
  apply forBreak_spec (fun current => Regrouped current ps) (fun current => Regrouped current ps)
  · intro current id member regrouped
    rw [topUpStep_eq]
    by_cases full : (current.groupOf label).keys.length ≥ groupConnNum
    · rw [if_pos full]
      exact regrouped
    · rw [if_neg full]
      have node : id ∈ current.nodesOf label := by
        rw [regrouped.nodesOf]
        exact (mem_shuffle_ids shuffle _ id).mp member
      exact (regrouped_topUp label now regrouped.tracked ((regrouped.groups label).mpr grouped) node
        (Nat.lt_of_not_le full)).trans regrouped
  · exact fun _ kept => kept
  · exact Regrouped.refl tracked

end Ensure

theorem regrouped_ensureGroupConn (registered : String → Bool) (clock : PeerLabel → String → Int)
    (now : Int) (tracked : Tracked ps) :
    Regrouped (ps.ensureGroupConn shuffle registered clock now) ps := by
  unfold PeerSet.ensureGroupConn
  refine @foldl_invariant_of_mem _ _ (fun current => Regrouped current ps) _ _ ?_ ps
    (Regrouped.refl tracked)
  intro current label member regrouped
  dsimp only
  have grouped : label ∈ current.groupConnPeers :=
    (regrouped.groups label).mpr ((mem_shuffle_labels shuffle _ label).mp member)
  have dropped := regrouped_dropTimedOut shuffle label registered (clock label) regrouped.tracked grouped
  exact ((regrouped_topUpLoop shuffle label now dropped.tracked ((dropped.groups label).mpr grouped)).trans
    dropped).trans regrouped

end Calls

/-! ### Over every run -/

/-- Every call keeps `Tracked`. -/
theorem Tracked.run {server : Server} {shuffle : Shuffle} {ps ps' : PeerSet} {call : PeerSetCall}
    (tracked : Tracked ps) (ran : ps.run server shuffle call = .ok ps') : Tracked ps' := by
  cases call with
  | buildConnection round notarySet now => exact tracked.buildConnection shuffle ran
  | forgetLabelConnection label =>
      cases ran
      exact tracked.forgetLabelConnection shuffle label
  | forgetConnection round =>
      cases ran
      exact tracked_forgetConnection shuffle round tracked
  | ensureGroupConn registered clock now =>
      cases ran
      exact (regrouped_ensureGroupConn shuffle registered clock now tracked).tracked

/-- One call of the peer set, in any order of its `range` loops. -/
def PeerStep (server : Server) (ps ps' : PeerSet) : Prop :=
  ∃ shuffle call, ps.run server shuffle call = .ok ps'

theorem tracked_of_reachable {server : Server} {ps : PeerSet}
    (reachable : Reachable (PeerStep server) (· = newPeerSet) ps) : Tracked ps := by
  apply Reachable.invariant _ _ reachable
  · rintro _ rfl
    exact tracked_newPeerSet
  · rintro ps ps' tracked ⟨shuffle, call, ran⟩
    exact tracked.run ran

/-- Peer-set bookkeeping: every run keeps `Tracked`, so the direct peers are counted right. -/
theorem direct_peers_counted {server : Server} {ps : PeerSet}
    (reachable : Reachable (PeerStep server) (· = newPeerSet) ps) :
    (∀ id labels, ps.allDirectPeers.lookup id = some labels → labels.Nonempty) ∧
    (∀ id label, label ∈ holdersOf ps.allDirectPeers id ↔
      (label ∈ ps.directConn ∧ id ∈ ps.nodesOf label) ∨ id ∈ ps.groupOf label) ∧
    (∀ label ∈ ps.directConn, label ∈ ps.label2Nodes) ∧
    (∀ label ∈ ps.groupConnPeers, label ∈ ps.label2Nodes) ∧
    (∀ label ∈ ps.directConn, label ∉ ps.groupConnPeers) ∧
    (∀ label, (ps.groupOf label).keys.length ≤ groupConnNum) ∧
    (∀ id, ps.calls.count (.addDirectPeer (some id)) =
      ps.calls.count (.removeDirectPeer (some id)) + if id ∈ ps.allDirectPeers then 1 else 0) ∧
    ServerCall.addDirectPeer none ∉ ps.calls ∧ ServerCall.removeDirectPeer none ∉ ps.calls ∧
    ∀ shuffle round id, (∀ label ∈ holdersOf ps.allDirectPeers id, label.round ≤ round) →
      id ∉ (ps.forgetConnection shuffle round).allDirectPeers := by
  have tracked := tracked_of_reachable reachable
  refine ⟨tracked.reflects.noEmpty, tracked.reflects.exact, tracked.shaped.directLabelled,
    tracked.shaped.groupLabelled, tracked.shaped.apart, tracked.shaped.bounded, tracked.logged.balanced,
    tracked.logged.named.1, tracked.logged.named.2, ?_⟩
  intro shuffle round id old present
  have trackedAfter := tracked_forgetConnection shuffle round tracked
  obtain ⟨label, held⟩ :=
    Finset.nonempty_iff_ne_empty.mpr ((trackedAfter.reflects.noEmpty.mem_iff id).mp present)
  obtain ⟨later, before⟩ :=
    (holds_forgetConnection shuffle round ps id label).mp ((trackedAfter.reflects.exact id label).mp held)
  exact Nat.not_le_of_lt later (old label ((tracked.reflects.exact id label).mpr before))

/-- The `range` loops in the order the maps keep their keys. -/
def inOrder : Shuffle := ⟨id, id, fun _ => List.Perm.refl _, fun _ => List.Perm.refl _⟩

/-- A server whose node IDs are the public keys themselves, and whose own ID is `a`. -/
def serverA : Server := ⟨.ok, "a"⟩

/-- The peer set after `BuildConnection(0)` with the notary set `a, b`, `a` the node itself. -/
def roundZero : PeerSet :=
  PeerSet.buildDirectConn inOrder
    { newPeerSet with
      label2Nodes := newPeerSet.label2Nodes.insert ⟨.notaryset, 0⟩
        (((∅ : AList fun _ : String => Unit).insert "a" ()).insert "b" ()) }
    ⟨.notaryset, 0⟩

example : roundZero.calls = [.addDirectPeer (some "b"), .addDirectPeer (some "a")] := by decide

theorem roundZero_reachable : Reachable (PeerStep serverA) (· = newPeerSet) roundZero :=
  .step (.initial rfl) ⟨inOrder, .buildConnection 0 (.ok ["a", "b"]) 0, rfl⟩

theorem direct_peers_counted_roundZero :
    Reachable (PeerStep serverA) (· = newPeerSet) roundZero ∧
      (∀ id, roundZero.calls.count (.addDirectPeer (some id)) =
        roundZero.calls.count (.removeDirectPeer (some id)) +
          if id ∈ roundZero.allDirectPeers then 1 else 0) ∧
      ∀ round id, (∀ label ∈ holdersOf roundZero.allDirectPeers id, label.round ≤ round) →
        id ∉ (roundZero.forgetConnection inOrder round).allDirectPeers := by
  obtain ⟨-, -, -, -, -, -, counted, -, -, forgotten⟩ := direct_peers_counted roundZero_reachable
  exact ⟨roundZero_reachable, counted, forgotten inOrder⟩

end Tangerine.Proof.PeerConnections
