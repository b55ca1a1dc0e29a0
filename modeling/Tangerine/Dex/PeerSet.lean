import Mathlib.Data.List.AList
import Tangerine.Library.Holders
import Tangerine.Library.Loop

/-! The connections of `dex/peer.go` to the notary sets of rounds. -/

namespace Tangerine.Dex

open Tangerine.Library

/-- `setType`. -/
inductive SetType where
  | notaryset
deriving DecidableEq, Repr

/-- `peerLabel`. -/
structure PeerLabel where
  set : SetType
  round : Nat
deriving DecidableEq, Repr

/-- `groupConnNum`. -/
def groupConnNum : Nat := 3

/-- `groupConnTimeout`: three minutes, in nanoseconds. -/
def groupConnTimeout : Int := 3 * 60 * 1000000000

/-- A call on `srvr`, with the node it passes: its ID, or `none` for a nil node. -/
inductive ServerCall where
  | addDirectPeer (node : Option String)
  | removeDirectPeer (node : Option String)
deriving DecidableEq, Repr

/-- The orders in which `range` visits the keys of a map: a permutation of them. -/
structure Shuffle where
  ids : List String → List String
  labels : List PeerLabel → List PeerLabel
  ids_perm : ∀ keys, (ids keys).Perm keys
  labels_perm : ∀ keys, (labels keys).Perm keys

/-- The fields of `peerSet` that these calls read and write, and the calls made on `srvr`. -/
structure PeerSet where
  label2Nodes : AList fun _ : PeerLabel => AList fun _ : String => Unit
  directConn : AList fun _ : PeerLabel => Unit
  groupConnPeers : AList fun _ : PeerLabel => AList fun _ : String => Int
  allDirectPeers : HolderMap String PeerLabel
  calls : List ServerCall

/-- `newPeerSet`. -/
def newPeerSet : PeerSet := ⟨∅, ∅, ∅, ∅, []⟩

namespace PeerSet

/-- `ps.label2Nodes[label]`. -/
def nodesOf (ps : PeerSet) (label : PeerLabel) : AList fun _ : String => Unit :=
  (ps.label2Nodes.lookup label).getD ∅

/-- `ps.groupConnPeers[label]`. -/
def groupOf (ps : PeerSet) (label : PeerLabel) : AList fun _ : String => Int :=
  (ps.groupConnPeers.lookup label).getD ∅

/-- `ps.label2Nodes[label][id]`: the node, by its ID, or nil. -/
def nodeAt (ps : PeerSet) (label : PeerLabel) (id : String) : Option String :=
  if id ∈ ps.nodesOf label then some id else none

/-- `addDirectPeer`. -/
def addDirectPeer (ps : PeerSet) (id : String) (label : PeerLabel) : PeerSet :=
  { ps with
    allDirectPeers := (acquire ps.allDirectPeers id label).1
    calls := if (acquire ps.allDirectPeers id label).2 then
        ps.calls ++ [.addDirectPeer (ps.nodeAt label id)]
      else ps.calls }

/-- `removeDirectPeer`. -/
def removeDirectPeer (ps : PeerSet) (id : String) (label : PeerLabel) : PeerSet :=
  { ps with
    allDirectPeers := (release ps.allDirectPeers id label).1
    calls := if (release ps.allDirectPeers id label).2 then
        ps.calls ++ [.removeDirectPeer (ps.nodeAt label id)]
      else ps.calls }

/-- `buildDirectConn`. -/
def buildDirectConn (shuffle : Shuffle) (ps : PeerSet) (label : PeerLabel) : PeerSet :=
  let ps := { ps with directConn := ps.directConn.insert label () }
  (shuffle.ids (ps.nodesOf label).keys).foldl (fun ps id => ps.addDirectPeer id label) ps

/-- `forgetDirectConn`. -/
def forgetDirectConn (shuffle : Shuffle) (ps : PeerSet) (label : PeerLabel) : PeerSet :=
  let ps := (shuffle.ids (ps.nodesOf label).keys).foldl (fun ps id => ps.removeDirectPeer id label) ps
  { ps with directConn := ps.directConn.erase label }

/-- One iteration of `buildGroupConn`'s loop, on the group being built and the peer set. -/
def buildGroupStep (label : PeerLabel) (now : Int)
    (state : (AList fun _ : String => Int) × PeerSet) (id : String) :
    Iteration ((AList fun _ : String => Int) × PeerSet) :=
  let peers := state.1.insert id now
  let ps := state.2.addDirectPeer id label
  if peers.keys.length ≥ groupConnNum then .exit (peers, ps) else .next (peers, ps)

/-- `buildGroupConn`. -/
def buildGroupConn (shuffle : Shuffle) (ps : PeerSet) (label : PeerLabel) (now : Int) : PeerSet :=
  let built := forBreak (buildGroupStep label now) (shuffle.ids (ps.nodesOf label).keys) (∅, ps)
  { built.2 with groupConnPeers := built.2.groupConnPeers.insert label built.1 }

/-- `forgetGroupConn`. -/
def forgetGroupConn (shuffle : Shuffle) (ps : PeerSet) (label : PeerLabel) : PeerSet :=
  let ps := (shuffle.ids (ps.groupOf label).keys).foldl (fun ps id => ps.removeDirectPeer id label) ps
  { ps with groupConnPeers := ps.groupConnPeers.erase label }

/-- `pksToNodes`: the nodes of the public keys, by their IDs. -/
def pksToNodes (newEmptyNode : String → Except String String) (pks : List String) :
    Except Halt (AList fun _ : String => Unit) :=
  pks.foldlM (fun nodes pk =>
    match newEmptyNode pk with
    | .ok id => .ok (nodes.insert id ())
    | .error err => .error (.panic err)) ∅

/-- `BuildConnection`, given the notary set, `newEmptyNode`, `srvr.Self()` and `time.Now()`. -/
def buildConnection (shuffle : Shuffle) (notarySet : Except String (List String))
    (newEmptyNode : String → Except String String) (selfID : String) (now : Int) (ps : PeerSet)
    (round : Nat) : Except Halt PeerSet :=
  let notaryLabel : PeerLabel := ⟨.notaryset, round⟩
  if notaryLabel ∈ ps.label2Nodes then .ok ps
  else
    match notarySet with
    | .error _ => .ok ps
    | .ok notaryPKs => do
      let nodes ← pksToNodes newEmptyNode notaryPKs
      let ps := { ps with label2Nodes := ps.label2Nodes.insert notaryLabel nodes }
      if selfID ∈ nodes then pure (ps.buildDirectConn shuffle notaryLabel)
      else pure (ps.buildGroupConn shuffle notaryLabel now)

/-- `ForgetLabelConnection`. -/
def forgetLabelConnection (shuffle : Shuffle) (ps : PeerSet) (label : PeerLabel) : PeerSet :=
  let ps := ps.forgetDirectConn shuffle label
  let ps := ps.forgetGroupConn shuffle label
  { ps with label2Nodes := ps.label2Nodes.erase label }

/-- One iteration of the first loop of `ForgetConnection`. -/
def forgetDirectStep (shuffle : Shuffle) (round : Nat) (ps : PeerSet) (label : PeerLabel) : PeerSet :=
  if label.round ≤ round then ps.forgetDirectConn shuffle label else ps

/-- One iteration of the second loop of `ForgetConnection`. -/
def forgetGroupStep (shuffle : Shuffle) (round : Nat) (ps : PeerSet) (label : PeerLabel) : PeerSet :=
  if label.round ≤ round then ps.forgetGroupConn shuffle label else ps

/-- One iteration of the third loop of `ForgetConnection`. -/
def forgetLabelStep (round : Nat) (ps : PeerSet) (label : PeerLabel) : PeerSet :=
  if label.round ≤ round then { ps with label2Nodes := ps.label2Nodes.erase label } else ps

/-- `ForgetConnection`; each `range` visits the keys the map had when it started. -/
def forgetConnection (shuffle : Shuffle) (ps : PeerSet) (round : Nat) : PeerSet :=
  let ps := (shuffle.labels ps.directConn.keys).foldl (forgetDirectStep shuffle round) ps
  let ps := (shuffle.labels ps.groupConnPeers.keys).foldl (forgetGroupStep shuffle round) ps
  (shuffle.labels ps.label2Nodes.keys).foldl (forgetLabelStep round) ps

/-- The loop of `EnsureGroupConn` that drops the group peers timed out and not registered. -/
def dropTimedOut (shuffle : Shuffle) (registered : String → Bool) (clock : String → Int)
    (label : PeerLabel) (ps : PeerSet) : PeerSet :=
  let peers := ps.groupOf label
  (shuffle.ids peers.keys).foldl (fun ps id =>
    if !registered id && decide (clock id - (peers.lookup id).getD 0 > groupConnTimeout) then
      let ps := ps.removeDirectPeer id label
      { ps with groupConnPeers := ps.groupConnPeers.insert label ((ps.groupOf label).erase id) }
    else ps) ps

/-- One iteration of the loop of `EnsureGroupConn` that tops up the group of `label`. -/
def topUpStep (label : PeerLabel) (now : Int) (ps : PeerSet) (id : String) : Iteration PeerSet :=
  if (ps.groupOf label).keys.length ≥ groupConnNum then .exit ps
  else
    let ps := { ps with
      groupConnPeers := ps.groupConnPeers.insert label ((ps.groupOf label).insert id now) }
    .next (ps.addDirectPeer id label)

/-- `EnsureGroupConn`, given the registered peers, the clocks and `time.Now()`. -/
def ensureGroupConn (shuffle : Shuffle) (registered : String → Bool)
    (clock : PeerLabel → String → Int) (now : Int) (ps : PeerSet) : PeerSet :=
  (shuffle.labels ps.groupConnPeers.keys).foldl (fun ps label =>
    let ps := ps.dropTimedOut shuffle registered (clock label) label
    forBreak (topUpStep label now) (shuffle.ids (ps.nodesOf label).keys) ps) ps

end PeerSet

/-- A call of the peer set, with what it reads from outside. -/
inductive PeerSetCall where
  | buildConnection (round : Nat) (notarySet : Except String (List String)) (now : Int)
  | forgetLabelConnection (label : PeerLabel)
  | forgetConnection (round : Nat)
  | ensureGroupConn (registered : String → Bool) (clock : PeerLabel → String → Int) (now : Int)

/-- What `srvr` gives the peer set: the IDs of `newEmptyNode` and the ID of `srvr.Self()`. -/
structure Server where
  newEmptyNode : String → Except String String
  selfID : String

/-- One call, run to its end. -/
def PeerSet.run (server : Server) (shuffle : Shuffle) (ps : PeerSet) : PeerSetCall → Except Halt PeerSet
  | .buildConnection round notarySet now =>
    ps.buildConnection shuffle notarySet server.newEmptyNode server.selfID now round
  | .forgetLabelConnection label => .ok (ps.forgetLabelConnection shuffle label)
  | .forgetConnection round => .ok (ps.forgetConnection shuffle round)
  | .ensureGroupConn registered clock now => .ok (ps.ensureGroupConn shuffle registered clock now)

end Tangerine.Dex
