import Mathlib.Data.List.AList
import Tangerine.Common.Types
import Tangerine.Library.Loop

/-! The vote cache of `dex/cache.go`. -/

namespace Tangerine.Dex

open Tangerine.Common Tangerine.Library

/-- `coreTypes.Position`. -/
structure Position where
  round : Nat
  height : Nat
deriving DecidableEq, Repr

/-- `coreTypes.VoteType`, a byte. -/
abbrev VoteType := UInt8

/-- `voteKey`: the fields of a vote's `VoteHeader`. -/
structure VoteKey where
  proposerID : NodeID
  type : VoteType
  blockHash : Hash
  period : Nat
  position : Position
deriving DecidableEq, Repr

/-- `coreTypes.Vote`: the fields of its `VoteHeader`, and its signatures as their bytes. -/
structure Vote where
  proposerID : NodeID
  type : VoteType
  blockHash : Hash
  period : Nat
  position : Position
  partialSignature : Bytes
  signature : Bytes
deriving DecidableEq, Repr

/-- `voteToKey`. -/
def voteToKey (vote : Vote) : VoteKey :=
  ⟨vote.proposerID, vote.type, vote.blockHash, vote.period, vote.position⟩

/-- The votes of one position, by their keys. -/
abbrev VoteMap := AList fun _ : VoteKey => Vote

/-- The fields of `cache` that `addVote` and `votes` read and write. -/
structure Cache where
  voteCache : AList fun _ : Position => VoteMap
  votePosition : List Position
  voteSize : Int
  size : Int

/-- `newCache`. -/
def newCache (size : Int) : Cache := ⟨∅, [], 0, size⟩

/-- `c.voteCache[pos]`: the empty map for a position the cache does not hold. -/
def Cache.votesAt (c : Cache) (pos : Position) : VoteMap := (c.voteCache.lookup pos).getD ∅

/-- The eviction that opens `addVote` once `voteSize` has reached `size`. -/
def Cache.evict (c : Cache) : Except Halt Cache :=
  match c.votePosition with
  | [] => .error (.panic "index out of range")
  | pos :: rest =>
    .ok { c with
      voteSize := c.voteSize - (c.votesAt pos).entries.length
      voteCache := c.voteCache.erase pos
      votePosition := rest }

/-- The rest of `addVote`. -/
def Cache.store (c : Cache) (vote : Vote) : Cache :=
  let c := match c.voteCache.lookup vote.position with
    | some _ => c
    | none =>
      { c with
        votePosition := c.votePosition ++ [vote.position]
        voteCache := c.voteCache.insert vote.position ∅ }
  let key := voteToKey vote
  match (c.votesAt vote.position).lookup key with
  | some _ => c
  | none =>
    { c with
      voteCache := c.voteCache.insert vote.position ((c.votesAt vote.position).insert key vote)
      voteSize := c.voteSize + 1 }

/-- `addVote`. -/
def Cache.addVote (c : Cache) (vote : Vote) : Except Halt Cache := do
  let c ← if c.voteSize ≥ c.size then c.evict else pure c
  pure (c.store vote)

/-- `votes`: the votes of `pos`, in the order of its map. -/
def Cache.votes (c : Cache) (pos : Position) : List Vote := (c.votesAt pos).entries.map Sigma.snd

end Tangerine.Dex
