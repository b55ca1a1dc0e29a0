import Mathlib.Algebra.BigOperators.Group.List.Basic
import Tangerine.Dex.Cache
import Tangerine.Library.Transition

/-! The bookkeeping of the vote cache (`dex/cache.go`) over every run of `addVote`. -/

namespace Tangerine.Proof.VoteCache

open Tangerine.Dex Tangerine.Library

/-- `len(c.voteCache[pos])`. -/
def voteCount (c : Cache) (pos : Position) : Nat := (c.votesAt pos).entries.length

/-- What `addVote` keeps track of. -/
structure Bookkept (c : Cache) : Prop where
  nodup : c.votePosition.Nodup
  held : ∀ pos, pos ∈ c.voteCache ↔ pos ∈ c.votePosition
  nonempty : ∀ pos ∈ c.votePosition, 0 < voteCount c pos
  keyed : ∀ pos key vote, (c.votesAt pos).lookup key = some vote →
    voteToKey vote = key ∧ vote.position = pos
  counted : c.voteSize = ((c.votePosition.map (voteCount c)).sum : Nat)
  bounded : c.voteSize ≤ c.size

theorem bookkept_newCache {size : Int} (nonnegative : 0 ≤ size) : Bookkept (newCache size) where
  nodup := List.nodup_nil
  held pos := by simp [newCache]
  nonempty pos mem := absurd mem List.not_mem_nil
  keyed pos key vote found := by simp [newCache, Cache.votesAt] at found
  counted := rfl
  bounded := nonnegative

/-! ### Reading a map of maps -/

theorem votesAt_mk (voteCache : AList fun _ : Position => VoteMap) (votePosition : List Position)
    (voteSize size : Int) (pos : Position) :
    (Cache.mk voteCache votePosition voteSize size).votesAt pos = (voteCache.lookup pos).getD ∅ :=
  rfl

theorem getD_lookup_erase (voteCache : AList fun _ : Position => VoteMap) (erased pos : Position) :
    ((voteCache.erase erased).lookup pos).getD ∅ =
      if pos = erased then ∅ else (voteCache.lookup pos).getD ∅ := by
  by_cases same : pos = erased
  · rw [if_pos same, same, AList.lookup_erase]
    rfl
  · rw [if_neg same, AList.lookup_erase_ne same]

theorem getD_lookup_insert (voteCache : AList fun _ : Position => VoteMap) (inserted pos : Position)
    (votes : VoteMap) :
    ((voteCache.insert inserted votes).lookup pos).getD ∅ =
      if pos = inserted then votes else (voteCache.lookup pos).getD ∅ := by
  by_cases same : pos = inserted
  · rw [if_pos same, same, AList.lookup_insert]
    rfl
  · rw [if_neg same, AList.lookup_insert_ne same]

/-! ### Eviction -/

/-- Evicting the head of a full bookkept cache leaves a bookkept cache with room for a vote. -/
theorem evict_spec {c : Cache} (kept : Bookkept c) (one : 1 ≤ c.size)
    (full : c.size ≤ c.voteSize) :
    ∃ head e, c.votePosition.head? = some head ∧ c.evict = .ok e ∧
      e.votePosition = c.votePosition.tail ∧ e.size = c.size ∧
      (∀ pos, e.votesAt pos = if pos = head then ∅ else c.votesAt pos) ∧
      Bookkept e ∧ e.voteSize < e.size := by
  obtain ⟨nodup, held, nonempty, keyed, counted, bounded⟩ := kept
  cases positions : c.votePosition with
  | nil =>
      rw [positions, List.map_nil, List.sum_nil] at counted
      omega
  | cons head rest =>
      rw [positions] at nodup nonempty counted
      have fresh : head ∉ rest := (List.nodup_cons.mp nodup).1
      have evicted : ∀ pos, (Cache.mk (c.voteCache.erase head) rest
          (c.voteSize - voteCount c head) c.size).votesAt pos =
          if pos = head then ∅ else c.votesAt pos := by
        intro pos
        rw [votesAt_mk, getD_lookup_erase]
        rfl
      have untouched : ∀ pos ∈ rest, voteCount ⟨c.voteCache.erase head, rest,
          c.voteSize - voteCount c head, c.size⟩ pos = voteCount c pos := by
        intro pos mem
        rw [voteCount, evicted, if_neg (fun same : pos = head => fresh (same ▸ mem))]
        rfl
      have remaining : ((rest.map (voteCount ⟨c.voteCache.erase head, rest,
          c.voteSize - voteCount c head, c.size⟩)).sum : Int) = c.voteSize - voteCount c head := by
        rw [List.map_congr_left untouched, counted, List.map_cons, List.sum_cons]
        omega
      have positive := nonempty head List.mem_cons_self
      refine ⟨head, ⟨c.voteCache.erase head, rest, c.voteSize - voteCount c head, c.size⟩, rfl,
        by simp only [Cache.evict, positions]; rfl, rfl, rfl, evicted, ?_, by simp only; omega⟩
      refine ⟨(List.nodup_cons.mp nodup).2, ?_, ?_, ?_, remaining.symm, by simp only; omega⟩
      · intro pos
        rw [AList.mem_erase, held, positions, List.mem_cons]
        constructor
        · rintro ⟨other, same | mem⟩
          · exact absurd same other
          · exact mem
        · intro mem
          exact ⟨fun same : pos = head => fresh (same ▸ mem), Or.inr mem⟩
      · intro pos mem
        rw [untouched pos mem]
        exact nonempty pos (List.mem_cons_of_mem _ mem)
      · intro pos key vote found
        rw [evicted] at found
        split at found
        · simp at found
        · exact keyed pos key vote found

/-! ### Storing a vote -/

/-- The cache with a fresh vote stored. -/
def withVote (c : Cache) (vote : Vote) : Cache :=
  ⟨c.voteCache.insert vote.position ((c.votesAt vote.position).insert (voteToKey vote) vote),
    c.votePosition ++ (if vote.position ∈ c.voteCache then [] else [vote.position]),
    c.voteSize + 1, c.size⟩

/-- What the rest of `addVote` does, in one step. -/
theorem store_eq (c : Cache) (vote : Vote) :
    c.store vote =
      if (c.votesAt vote.position).lookup (voteToKey vote) = none then withVote c vote else c := by
  unfold Cache.store withVote
  cases held : c.voteCache.lookup vote.position with
  | some votes =>
      have mem : vote.position ∈ c.voteCache := AList.lookup_isSome.mp (by rw [held]; rfl)
      simp only [if_pos mem, List.append_nil]
      split
      · rename_i found
        rw [if_neg (by rw [found]; exact Option.some_ne_none _)]
      · rename_i fresh
        rw [if_pos fresh]
  | none =>
      have absent : vote.position ∉ c.voteCache := AList.lookup_eq_none.mp held
      have empty : c.votesAt vote.position = ∅ := by rw [Cache.votesAt, held]; rfl
      simp only [if_neg absent, empty, AList.lookup_empty, if_true]
      rw [votesAt_mk, AList.lookup_insert, Option.getD_some, AList.lookup_empty, AList.insert_insert]

/-- Over a list without duplicates, adding one at one of its members adds one to the sum. -/
theorem sum_map_add_single {l : List Position} (nodup : l.Nodup) {p : Position} (mem : p ∈ l)
    (f : Position → Nat) : (l.map fun q => f q + if q = p then 1 else 0).sum = (l.map f).sum + 1 := by
  rw [List.sum_map_add, List.sum_map_eq_nsmul_single p _ (fun q other _ => if_neg other),
    if_pos rfl, List.count_eq_one_of_mem nodup mem]
  rfl

section Fresh

variable {c : Cache}

theorem votesAt_withVote (vote : Vote) (pos : Position) :
    (withVote c vote).votesAt pos =
      if pos = vote.position then (c.votesAt vote.position).insert (voteToKey vote) vote
      else c.votesAt pos := by
  rw [withVote, votesAt_mk, getD_lookup_insert]
  rfl

theorem voteCount_withVote {vote : Vote} (fresh : (c.votesAt vote.position).lookup (voteToKey vote) = none)
    (pos : Position) :
    voteCount (withVote c vote) pos = voteCount c pos + if pos = vote.position then 1 else 0 := by
  rw [voteCount, votesAt_withVote]
  by_cases same : pos = vote.position
  · rw [if_pos same, if_pos same, same,
      AList.entries_insert_of_notMem (AList.lookup_eq_none.mp fresh), List.length_cons]
    rfl
  · rw [if_neg same, if_neg same]
    rfl

/-- The positions after a fresh vote. -/
theorem mem_votePosition_withVote (vote : Vote) (held : ∀ pos, pos ∈ c.voteCache ↔ pos ∈ c.votePosition)
    (pos : Position) : pos ∈ (withVote c vote).votePosition ↔ pos = vote.position ∨ pos ∈ c.votePosition := by
  show pos ∈ c.votePosition ++ _ ↔ _
  by_cases mem : vote.position ∈ c.voteCache
  · rw [if_pos mem, List.append_nil]
    constructor
    · exact Or.inr
    · rintro (same | old)
      · exact same ▸ (held _).mp mem
      · exact old
  · rw [if_neg mem, List.mem_append, List.mem_singleton]
    exact or_comm

theorem nodup_withVote (kept : Bookkept c) (vote : Vote) : (withVote c vote).votePosition.Nodup := by
  show (c.votePosition ++ _).Nodup
  by_cases mem : vote.position ∈ c.voteCache
  · rw [if_pos mem, List.append_nil]
    exact kept.nodup
  · rw [if_neg mem, ← List.concat_eq_append]
    exact kept.nodup.concat (fun old => mem ((kept.held _).mpr old))

/-- The positions after a fresh vote count the votes before it. -/
theorem sum_withVote (kept : Bookkept c) (vote : Vote) :
    ((((withVote c vote).votePosition.map (voteCount c)).sum : Nat) : Int) = c.voteSize := by
  show ((((c.votePosition ++ _).map (voteCount c)).sum : Nat) : Int) = _
  by_cases mem : vote.position ∈ c.voteCache
  · rw [if_pos mem, List.append_nil, kept.counted]
  · have unheld : voteCount c vote.position = 0 := by
      rw [voteCount, Cache.votesAt, AList.lookup_eq_none.mpr mem]
      rfl
    rw [if_neg mem, List.map_append, List.sum_append, List.map_singleton, List.sum_singleton, unheld,
      Nat.add_zero, kept.counted]

/-- Storing a vote whose key is free, with room for it, keeps the cache bookkept. -/
theorem bookkept_of_fresh (kept : Bookkept c) (room : c.voteSize < c.size) {vote : Vote}
    (fresh : (c.votesAt vote.position).lookup (voteToKey vote) = none) : Bookkept (withVote c vote) := by
  have positions := mem_votePosition_withVote vote kept.held
  refine ⟨nodup_withVote kept vote, fun pos => ?_, fun pos mem => ?_, fun pos key w found => ?_, ?_, ?_⟩
  · show pos ∈ c.voteCache.insert vote.position _ ↔ _
    rw [AList.mem_insert, kept.held, positions]
  · rw [voteCount_withVote fresh]
    rcases (positions pos).mp mem with same | old
    · rw [if_pos same]
      omega
    · exact Nat.lt_of_lt_of_le (kept.nonempty pos old) (Nat.le_add_right _ _)
  · rw [votesAt_withVote] at found
    split at found
    · rename_i same
      by_cases new : key = voteToKey vote
      · rw [new, AList.lookup_insert, Option.some_inj] at found
        subst found
        exact ⟨new.symm, same.symm⟩
      · rw [AList.lookup_insert_ne new] at found
        exact (kept.keyed vote.position key w found).imp id (fun placed => placed.trans same.symm)
    · exact kept.keyed pos key w found
  · rw [show voteCount (withVote c vote) = _ from funext (voteCount_withVote fresh),
      sum_map_add_single (nodup_withVote kept vote) ((positions vote.position).mpr (Or.inl rfl)),
      Nat.cast_add, sum_withVote kept vote]
    rfl
  · show c.voteSize + 1 ≤ c.size
    omega

end Fresh

/-- Storing a vote in a bookkept cache with room for it keeps the cache bookkept. -/
theorem bookkept_store {c : Cache} (kept : Bookkept c) (room : c.voteSize < c.size) (vote : Vote) :
    Bookkept (c.store vote) := by
  rw [store_eq]
  split
  · rename_i fresh
    exact bookkept_of_fresh kept room fresh
  · exact kept

theorem store_size (c : Cache) (vote : Vote) : (c.store vote).size = c.size := by
  rw [store_eq]
  split <;> rfl

/-- A position holds a vote only if the cache holds the position. -/
theorem mem_of_lookup {c : Cache} {pos : Position} {key : VoteKey} {w : Vote}
    (found : (c.votesAt pos).lookup key = some w) : pos ∈ c.voteCache := by
  by_contra absent
  rw [Cache.votesAt, AList.lookup_eq_none.mpr absent, Option.getD_none, AList.lookup_empty] at found
  cases found

/-- The vote's position joins the end of `votePosition` when the cache did not hold it. -/
theorem store_votePosition {c : Cache} (kept : Bookkept c) (vote : Vote) :
    (c.store vote).votePosition =
      c.votePosition ++ (if vote.position ∈ c.votePosition then [] else [vote.position]) := by
  rw [store_eq]
  split
  · show c.votePosition ++ _ = _
    exact congrArg _ (if_congr (kept.held _) rfl rfl)
  · rename_i found
    obtain ⟨w, found⟩ := Option.ne_none_iff_exists'.mp found
    rw [if_pos ((kept.held _).mp (mem_of_lookup found)), List.append_nil]

/-- A vote is stored after `store` exactly when it was before, or it is the new one and was free. -/
theorem lookup_store (c : Cache) (vote : Vote) (pos : Position) (key : VoteKey) (w : Vote) :
    ((c.store vote).votesAt pos).lookup key = some w ↔
      (c.votesAt pos).lookup key = some w ∨
        (pos = vote.position ∧ key = voteToKey vote ∧ w = vote ∧ (c.votesAt pos).lookup key = none) := by
  rw [store_eq]
  split
  · rename_i fresh
    rw [votesAt_withVote]
    by_cases same : pos = vote.position
    · subst same
      rw [if_pos rfl]
      by_cases new : key = voteToKey vote
      · subst new
        rw [AList.lookup_insert, fresh, Option.some_inj]
        constructor
        · intro stored
          exact Or.inr ⟨rfl, rfl, stored.symm, rfl⟩
        · rintro (impossible | ⟨-, -, stored, -⟩)
          · cases impossible
          · exact stored.symm
      · rw [AList.lookup_insert_ne new]
        constructor
        · exact Or.inl
        · rintro (old | ⟨-, absurdity, -⟩)
          · exact old
          · exact absurd absurdity new
    · rw [if_neg same]
      constructor
      · exact Or.inl
      · rintro (old | ⟨absurdity, -⟩)
        · exact old
        · exact absurd absurdity same
  · rename_i found
    constructor
    · exact Or.inl
    · rintro (old | ⟨same, new, -, free⟩)
      · exact old
      · subst same new
        exact absurd free found

/-! ### A call -/

/-- The positions a call keeps: all of them, or all but the head when the cache is full. -/
def remaining (c : Cache) : List Position :=
  if c.size ≤ c.voteSize then c.votePosition.tail else c.votePosition

/-- Whether a call evicts `pos`: the cache is full and `pos` heads `votePosition`. -/
def Evicts (c : Cache) (pos : Position) : Prop := c.size ≤ c.voteSize ∧ c.votePosition.head? = some pos

instance (c : Cache) (pos : Position) : Decidable (Evicts c pos) :=
  inferInstanceAs (Decidable (_ ∧ _))

/-- A call on a bookkept cache with `size ≥ 1` does not panic and stores in a bookkept cache. -/
theorem addVote_eq {c : Cache} (kept : Bookkept c) (one : 1 ≤ c.size) (vote : Vote) :
    ∃ e, c.addVote vote = .ok (e.store vote) ∧ Bookkept e ∧ e.voteSize < e.size ∧
      e.size = c.size ∧ e.votePosition = remaining c ∧
      ∀ pos, e.votesAt pos = if Evicts c pos then ∅ else c.votesAt pos := by
  by_cases full : c.size ≤ c.voteSize
  · obtain ⟨head, e, first, evicted, positions, size, votesAt, kept', room⟩ :=
      evict_spec kept one full
    refine ⟨e, ?_, kept', room, size, by rw [remaining, if_pos full, positions], ?_⟩
    · simp only [Cache.addVote, ge_iff_le, if_pos full, evicted]
      rfl
    · intro pos
      rw [votesAt pos]
      by_cases same : pos = head
      · rw [if_pos same, if_pos (show Evicts c pos from ⟨full, by rw [first, same]⟩)]
      · rw [if_neg same, if_neg (fun evicts : Evicts c pos =>
          same (Option.some_inj.mp (first.symm.trans evicts.2)).symm)]
  · refine ⟨c, ?_, kept, by omega, rfl, by rw [remaining, if_neg full], ?_⟩
    · simp only [Cache.addVote, ge_iff_le, if_neg full]
      rfl
    · intro pos
      rw [if_neg (fun evicts => full evicts.1)]

/-- The calls of `addVote` on one cache. -/
def AddVoteStep (c c' : Cache) : Prop := ∃ vote, c.addVote vote = .ok c'

/-- One call keeps a cache with `size ≥ 1` bookkept, and keeps its `size`. -/
theorem addVote_bookkept {c : Cache} (kept : Bookkept c) (one : 1 ≤ c.size) (vote : Vote) :
    ∃ c', c.addVote vote = .ok c' ∧ Bookkept c' ∧ c'.size = c.size := by
  obtain ⟨e, called, kept', room, size, -⟩ := addVote_eq kept one vote
  exact ⟨e.store vote, called, bookkept_store kept' room vote, by rw [store_size, size]⟩

/-- Every cache reached from `newCache size` with `size ≥ 1` is bookkept. -/
theorem bookkept_of_reachable {size : Int} (one : 1 ≤ size) {c : Cache}
    (reachable : Reachable AddVoteStep (· = newCache size) c) : Bookkept c ∧ c.size = size := by
  apply Reachable.invariant _ _ reachable
  · rintro _ rfl
    exact ⟨bookkept_newCache (by omega), rfl⟩
  · rintro c c' ⟨kept, size⟩ ⟨vote, called⟩
    obtain ⟨c'', called', kept', size'⟩ := addVote_bookkept kept (size ▸ one) vote
    rw [called'] at called
    cases called
    exact ⟨kept', size'.trans size⟩

/-! ### Reading the votes of a position -/

/-- In a bookkept cache, `votes(pos)` lists the votes stored under `pos`, one for each key. -/
theorem votes_spec {c : Cache} (kept : Bookkept c) (pos : Position) :
    ((c.votes pos).map voteToKey).Nodup ∧
      ∀ w, w ∈ c.votes pos ↔ (c.votesAt pos).lookup (voteToKey w) = some w := by
  have keyOf : ∀ entry ∈ (c.votesAt pos).entries, voteToKey entry.2 = entry.1 := by
    intro entry mem
    exact (kept.keyed pos entry.1 entry.2 (AList.mem_lookup_iff.mpr mem)).1
  refine ⟨?_, fun w => ?_⟩
  · have keys : (c.votesAt pos).entries.map (voteToKey ∘ Sigma.snd) =
        (c.votesAt pos).entries.map Sigma.fst := List.map_congr_left keyOf
    rw [Cache.votes, List.map_map, keys]
    exact (c.votesAt pos).keys_nodup
  · rw [Cache.votes, List.mem_map]
    constructor
    · rintro ⟨entry, mem, rfl⟩
      rw [keyOf entry mem]
      exact AList.mem_lookup_iff.mpr mem
    · intro found
      exact ⟨⟨voteToKey w, w⟩, AList.mem_lookup_iff.mp found, rfl⟩

/-! ### Duplicates -/

/-- On a cache that is not full, a vote whose key is stored at its position changes nothing. -/
theorem addVote_of_stored {c : Cache} {vote : Vote}
    (stored : (c.votesAt vote.position).lookup (voteToKey vote) ≠ none) (room : c.voteSize < c.size) :
    c.addVote vote = .ok c := by
  simp only [Cache.addVote, ge_iff_le, if_neg (show ¬c.size ≤ c.voteSize by omega), pure_bind]
  rw [store_eq, if_neg stored]
  rfl

/-- Vote-cache bookkeeping: from `newCache(size)`, every call keeps the cache bookkept. -/
theorem addVote_bookkeeping {size : Int} (one : 1 ≤ size) {c : Cache}
    (reachable : Reachable AddVoteStep (· = newCache size) c) (vote : Vote) :
    ∃ c', c.addVote vote = .ok c' ∧ Bookkept c' ∧
      (∀ pos, ((c'.votes pos).map voteToKey).Nodup ∧
        ∀ w, w ∈ c'.votes pos ↔ (c'.votesAt pos).lookup (voteToKey w) = some w) ∧
      c'.votePosition = remaining c ++
        (if vote.position ∈ remaining c then [] else [vote.position]) ∧
      (∀ pos key w, (c.votesAt pos).lookup key = some w →
        (c'.votesAt pos).lookup key = some w ∨ Evicts c pos) ∧
      (∀ pos, Evicts c pos → ∀ key w, (c'.votesAt pos).lookup key = some w → w = vote) ∧
      (∀ pos key w, (c'.votesAt pos).lookup key = some w →
        (c.votesAt pos).lookup key = some w ∨ w = vote) ∧
      ((c.votesAt vote.position).lookup (voteToKey vote) ≠ none → c.voteSize < c.size → c' = c) := by
  obtain ⟨kept, size⟩ := bookkept_of_reachable one reachable
  obtain ⟨e, called, kept', room, -, positions, votesAt⟩ := addVote_eq kept (size ▸ one) vote
  have stored := bookkept_store kept' room vote
  refine ⟨e.store vote, called, stored, votes_spec stored, ?_, ?_, ?_, ?_, ?_⟩
  · rw [store_votePosition kept', positions]
  · intro pos key w found
    by_cases evicts : Evicts c pos
    · exact Or.inr evicts
    · rw [lookup_store, votesAt, if_neg evicts]
      exact Or.inl (Or.inl found)
  · intro pos evicts key w found
    rw [lookup_store, votesAt, if_pos evicts, AList.lookup_empty] at found
    rcases found with impossible | ⟨-, -, same, -⟩
    · cases impossible
    · exact same
  · intro pos key w found
    rw [lookup_store, votesAt] at found
    rcases found with old | ⟨-, -, same, -⟩
    · split at old
      · rw [AList.lookup_empty] at old
        cases old
      · exact Or.inl old
    · exact Or.inr same
  · intro duplicate room'
    rw [addVote_of_stored duplicate room'] at called
    exact (Except.ok.inj called).symm

/-- A vote at `⟨round, 0⟩`, its other fields zero. -/
def voteAt (round : Nat) : Vote := ⟨⟨0⟩, 0, 0, 0, ⟨round, 0⟩, [], []⟩

/-- A full cache of size two: the votes at rounds 1 and 2. -/
def twoVotes : Cache := ((newCache 2).store (voteAt 1)).store (voteAt 2)

theorem twoVotes_reachable : Reachable AddVoteStep (· = newCache 2) twoVotes :=
  .step (.step (.initial rfl) ⟨voteAt 1, rfl⟩) ⟨voteAt 2, rfl⟩

theorem addVote_bookkeeping_twoVotes :
    ∃ c', twoVotes.addVote (voteAt 2) = .ok c' ∧ Bookkept c' := by
  obtain ⟨c', called, kept, -⟩ := addVote_bookkeeping (by decide) twoVotes_reachable (voteAt 2)
  exact ⟨c', called, kept⟩

/-- On a full cache, a vote whose key is stored still evicts the oldest position. -/
theorem addVote_duplicate_evicts :
    Reachable AddVoteStep (· = newCache 2) twoVotes ∧
      (twoVotes.votesAt (voteAt 2).position).lookup (voteToKey (voteAt 2)) = some (voteAt 2) ∧
      ∃ c', twoVotes.addVote (voteAt 2) = .ok c' ∧ c'.votePosition = [⟨2, 0⟩] ∧ c' ≠ twoVotes := by
  refine ⟨twoVotes_reachable, by decide, _, rfl, by decide, fun same => ?_⟩
  have positions := congrArg Cache.votePosition same
  revert positions
  decide

end Tangerine.Proof.VoteCache
