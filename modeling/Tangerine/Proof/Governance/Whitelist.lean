import Tangerine.Core.Vm.GovernanceState
import Tangerine.Library.IndexedArray

/-! The address whitelist of the governance contract is an indexed array. -/

namespace Tangerine.Proof.Whitelist

open Tangerine.Common Tangerine.Core.Vm Tangerine.Library.IndexedArray Function

/-- The whitelist's array and its stored offsets invert each other. -/
def WhitelistInverse (s : GovernanceState) : Prop :=
  Inverse some s.addressWhitelist s.whitelistLength s.whitelistSlot

/-- The addresses that have an offset. -/
def whitelisted (s : GovernanceState) : Set Address :=
  {addr | 0 ≤ s.whitelistOffsetByAddress addr}

theorem whitelistOffset_nonneg_iff (s : GovernanceState) (addr : Address) :
    0 ≤ s.whitelistOffsetByAddress addr ↔ s.whitelistSlot addr ≠ 0 := by
  unfold GovernanceState.whitelistOffsetByAddress
  omega

theorem whitelisted_eq_keys {s : GovernanceState} (inverse : WhitelistInverse s) :
    whitelisted s = keys some s.addressWhitelist s.whitelistLength := by
  ext addr
  rw [Inverse.mem_keys_iff inverse]
  exact whitelistOffset_nonneg_iff s addr

section Add

variable {s : GovernanceState} {addr : Address}

theorem addToWhitelist_of_listed (listed : s.whitelistSlot addr ≠ 0) :
    (s.addToWhitelist addr).2 = s := by
  have present : 0 ≤ s.whitelistOffsetByAddress addr :=
    (whitelistOffset_nonneg_iff s addr).mpr listed
  simp [GovernanceState.addToWhitelist, present]

theorem addToWhitelist_of_fresh (fresh : s.whitelistSlot addr = 0) :
    (s.addToWhitelist addr).2.addressWhitelist = update s.addressWhitelist s.whitelistLength addr ∧
      (s.addToWhitelist addr).2.whitelistLength = s.whitelistLength + 1 ∧
      (s.addToWhitelist addr).2.whitelistSlot =
        update s.whitelistSlot addr (s.whitelistLength + 1) := by
  have absent : ¬ 0 ≤ s.whitelistOffsetByAddress addr := by
    rw [whitelistOffset_nonneg_iff]
    exact not_not.mpr fresh
  simp [GovernanceState.addToWhitelist, absent, GovernanceState.putAddressWhitelist,
    GovernanceState.putWhitelistOffsetByAddress]

theorem addToWhitelist_inverse (inverse : WhitelistInverse s) :
    WhitelistInverse (s.addToWhitelist addr).2 ∧
      whitelisted (s.addToWhitelist addr).2 = insert addr (whitelisted s) := by
  by_cases listed : s.whitelistSlot addr = 0
  · obtain ⟨entries, length, slots⟩ := addToWhitelist_of_fresh listed
    have pushed : WhitelistInverse (s.addToWhitelist addr).2 := by
      unfold WhitelistInverse
      rw [entries, length, slots]
      exact inverse.push rfl listed
    refine ⟨pushed, ?_⟩
    rw [whitelisted_eq_keys pushed, whitelisted_eq_keys inverse, entries, length]
    exact keys_push rfl
  · rw [addToWhitelist_of_listed listed]
    refine ⟨inverse, ?_⟩
    have member : addr ∈ whitelisted s := (whitelistOffset_nonneg_iff s addr).mpr listed
    exact (Set.insert_eq_of_mem member).symm

end Add

section Delete

variable {s : GovernanceState} {addr : Address}

theorem deleteAddressWhitelist_of_unlisted (absent : s.whitelistSlot addr = 0) :
    (s.deleteAddressWhitelist addr).2 = s := by
  have negative : s.whitelistOffsetByAddress addr < 0 := by
    unfold GovernanceState.whitelistOffsetByAddress
    omega
  simp [GovernanceState.deleteAddressWhitelist, negative]

/-- A listed address that is not the last one is replaced by the last address. -/
theorem deleteAddressWhitelist_of_moved (listed : s.whitelistSlot addr ≠ 0)
    (notLast : s.whitelistSlot addr ≠ s.whitelistLength) (several : 1 < s.whitelistLength) :
    let hole := s.whitelistSlot addr - 1
    let last := s.addressWhitelist (s.whitelistLength - 1)
    (s.deleteAddressWhitelist addr).2.addressWhitelist = update s.addressWhitelist hole last ∧
      (s.deleteAddressWhitelist addr).2.whitelistLength = s.whitelistLength - 1 ∧
      (s.deleteAddressWhitelist addr).2.whitelistSlot =
        update (update s.whitelistSlot addr 0) last (hole + 1) := by
  have present : ¬ s.whitelistOffsetByAddress addr < 0 := by
    unfold GovernanceState.whitelistOffsetByAddress
    omega
  have moves : 1 < s.whitelistLength ∧
      s.whitelistOffsetByAddress addr ≠ (s.whitelistLength : Int) - 1 := by
    unfold GovernanceState.whitelistOffsetByAddress
    omega
  have lastIndex : ((s.whitelistLength : Int) - 1).toNat = s.whitelistLength - 1 := by omega
  have holeIndex : (s.whitelistOffsetByAddress addr).toNat = s.whitelistSlot addr - 1 := by
    unfold GovernanceState.whitelistOffsetByAddress
    omega
  have shortened : ((s.whitelistLength : Int) - 1).natAbs = s.whitelistLength - 1 := by omega
  simp [GovernanceState.deleteAddressWhitelist, present, moves,
    GovernanceState.putAddressWhitelist, GovernanceState.putWhitelistOffsetByAddress,
    GovernanceState.deleteWhitelistOffsetByAddress, lastIndex, holeIndex, shortened]

/-- The last address, or the only one, is dropped with the length. -/
theorem deleteAddressWhitelist_of_dropped (listed : s.whitelistSlot addr ≠ 0)
    (bounded : s.whitelistSlot addr ≤ s.whitelistLength)
    (lastOrOnly : s.whitelistSlot addr = s.whitelistLength ∨ s.whitelistLength ≤ 1) :
    (s.deleteAddressWhitelist addr).2.addressWhitelist = s.addressWhitelist ∧
      (s.deleteAddressWhitelist addr).2.whitelistLength = s.whitelistLength - 1 ∧
      (s.deleteAddressWhitelist addr).2.whitelistSlot = update s.whitelistSlot addr 0 := by
  have present : ¬ s.whitelistOffsetByAddress addr < 0 := by
    unfold GovernanceState.whitelistOffsetByAddress
    omega
  have stays : ¬ (1 < s.whitelistLength ∧
      s.whitelistOffsetByAddress addr ≠ (s.whitelistLength : Int) - 1) := by
    unfold GovernanceState.whitelistOffsetByAddress
    omega
  have shortened : ((s.whitelistLength : Int) - 1).natAbs = s.whitelistLength - 1 := by omega
  simp [GovernanceState.deleteAddressWhitelist, present, stays,
    GovernanceState.deleteWhitelistOffsetByAddress, shortened]

theorem deleteAddressWhitelist_inverse (inverse : WhitelistInverse s) :
    WhitelistInverse (s.deleteAddressWhitelist addr).2 ∧
      whitelisted (s.deleteAddressWhitelist addr).2 = whitelisted s \ {addr} := by
  by_cases absent : s.whitelistSlot addr = 0
  · rw [deleteAddressWhitelist_of_unlisted absent]
    have notMember : addr ∉ whitelisted s := fun member =>
      ((whitelistOffset_nonneg_iff s addr).mp member) absent
    exact ⟨inverse, (Set.sdiff_singleton_eq_self notMember).symm⟩
  obtain ⟨bounded, keyed⟩ := inverse.located addr absent
  by_cases moved : s.whitelistSlot addr ≠ s.whitelistLength ∧ 1 < s.whitelistLength
  · obtain ⟨entries, length, slots⟩ := deleteAddressWhitelist_of_moved absent moved.1 moved.2
    have hole : s.whitelistSlot addr - 1 < s.whitelistLength - 1 := by omega
    -- the moved address is the last one, so it is not the removed one
    have distinct : addr ≠ s.addressWhitelist (s.whitelistLength - 1) := by
      intro same
      have := inverse.position_unique (by omega) (by omega : s.whitelistLength - 1 < _) keyed
        (congrArg some same.symm)
      omega
    have result : WhitelistInverse (s.deleteAddressWhitelist addr).2 := by
      unfold WhitelistInverse
      rw [entries, length, slots, update_comm distinct]
      exact inverse.moveLast hole keyed rfl
    refine ⟨result, ?_⟩
    rw [whitelisted_eq_keys result, whitelisted_eq_keys inverse, entries, length]
    exact inverse.keys_moveLast hole keyed
  · have lastOrOnly : s.whitelistSlot addr = s.whitelistLength ∨ s.whitelistLength ≤ 1 := by
      omega
    obtain ⟨entries, length, slots⟩ := deleteAddressWhitelist_of_dropped absent bounded lastOrOnly
    have atLast : s.whitelistSlot addr - 1 = s.whitelistLength - 1 := by omega
    rw [atLast] at keyed
    have result : WhitelistInverse (s.deleteAddressWhitelist addr).2 := by
      unfold WhitelistInverse
      rw [entries, length, slots]
      exact inverse.removeLast (by omega) keyed
    refine ⟨result, ?_⟩
    rw [whitelisted_eq_keys result, whitelisted_eq_keys inverse, entries, length]
    exact inverse.keys_removeLast (by omega) keyed

end Delete

/-- One call of the whitelist helpers. -/
inductive WhitelistCall where
  | add (addr : Address)
  | delete (addr : Address)

def WhitelistCall.apply (s : GovernanceState) : WhitelistCall → GovernanceState
  | .add addr => (s.addToWhitelist addr).2
  | .delete addr => (s.deleteAddressWhitelist addr).2

/-- The set semantics of a run of calls: added and not deleted since. -/
def listedAfter (listed : Set Address) : List WhitelistCall → Set Address
  | [] => listed
  | .add addr :: calls => listedAfter (insert addr listed) calls
  | .delete addr :: calls => listedAfter (listed \ {addr}) calls

def runWhitelist (s : GovernanceState) (calls : List WhitelistCall) : GovernanceState :=
  calls.foldl WhitelistCall.apply s

theorem runWhitelist_cons (s : GovernanceState) (call : WhitelistCall) (calls : List WhitelistCall) :
    runWhitelist s (call :: calls) = runWhitelist (call.apply s) calls := rfl

theorem apply_inverse {s : GovernanceState} (inverse : WhitelistInverse s) (call : WhitelistCall) :
    WhitelistInverse (call.apply s) ∧
      whitelisted (call.apply s) = listedAfter (whitelisted s) [call] := by
  cases call with
  | add addr => exact addToWhitelist_inverse inverse
  | delete addr => exact deleteAddressWhitelist_inverse inverse

/-- Every run keeps the index and refines the set semantics. -/
theorem runWhitelist_inverse (calls : List WhitelistCall) :
    ∀ s, WhitelistInverse s → WhitelistInverse (runWhitelist s calls) ∧
      whitelisted (runWhitelist s calls) = listedAfter (whitelisted s) calls := by
  induction calls with
  | nil => exact fun s inverse => ⟨inverse, rfl⟩
  | cons call calls inductionHypothesis =>
      intro s inverse
      obtain ⟨stepped, listed⟩ := apply_inverse inverse call
      obtain ⟨kept, refined⟩ := inductionHypothesis (call.apply s) stepped
      rw [runWhitelist_cons]
      refine ⟨kept, ?_⟩
      rw [refined, listed]
      cases call <;> rfl

/-- Whitelist consistency: every run from an empty whitelist keeps it an indexed listing. -/
theorem whitelist_consistent (s : GovernanceState) (emptyList : s.whitelistLength = 0)
    (noOffsets : ∀ addr, s.whitelistSlot addr = 0) (calls : List WhitelistCall) :
    let t := runWhitelist s calls
    (∀ i j, i < t.lenWhitelist → j < t.lenWhitelist →
        t.addressWhitelist i = t.addressWhitelist j → i = j) ∧
      (∀ i, i < t.lenWhitelist → t.whitelistOffsetByAddress (t.addressWhitelist i) = i) ∧
      (∀ addr, 0 ≤ t.whitelistOffsetByAddress addr →
        t.whitelistOffsetByAddress addr < t.lenWhitelist ∧
          t.addressWhitelist (t.whitelistOffsetByAddress addr).toNat = addr) ∧
      whitelisted t = listedAfter ∅ calls := by
  dsimp only
  have initial : WhitelistInverse s := by
    unfold WhitelistInverse
    rw [emptyList, show s.whitelistSlot = fun _ => 0 from funext noOffsets]
    exact inverse_empty some _
  have nothingListed : whitelisted s = ∅ := by
    ext addr
    simp [whitelisted, whitelistOffset_nonneg_iff, noOffsets]
  obtain ⟨inverse, listed⟩ := runWhitelist_inverse calls s initial
  refine ⟨?_, ?_, ?_, ?_⟩
  · intro i j iBelow jBelow same
    exact inverse.position_unique iBelow jBelow rfl (congrArg some same.symm)
  · intro i below
    have stored := inverse.index_of_key below rfl
    unfold GovernanceState.whitelistOffsetByAddress
    omega
  · intro addr nonneg
    obtain ⟨bounded, keyed⟩ := inverse.located addr ((whitelistOffset_nonneg_iff _ addr).mp nonneg)
    have offset : ((runWhitelist s calls).whitelistOffsetByAddress addr).toNat =
        (runWhitelist s calls).whitelistSlot addr - 1 := by
      unfold GovernanceState.whitelistOffsetByAddress
      omega
    refine ⟨?_, ?_⟩
    · unfold GovernanceState.whitelistOffsetByAddress GovernanceState.lenWhitelist
      omega
    · rw [offset]
      exact Option.some.inj keyed
  · rw [listed, nothingListed]

/-- A run that adds two addresses, deletes the first and adds it back. -/
theorem whitelist_consistent_empty :
    GovernanceState.empty.whitelistLength = 0 ∧ (∀ addr, GovernanceState.empty.whitelistSlot addr = 0) ∧
      let t := runWhitelist GovernanceState.empty
        [.add 0x1#160, .add 0x2#160, .delete 0x1#160, .add 0x1#160]
      (∀ i j, i < t.lenWhitelist → j < t.lenWhitelist →
          t.addressWhitelist i = t.addressWhitelist j → i = j) ∧
        (∀ i, i < t.lenWhitelist → t.whitelistOffsetByAddress (t.addressWhitelist i) = i) ∧
        (∀ addr, 0 ≤ t.whitelistOffsetByAddress addr →
          t.whitelistOffsetByAddress addr < t.lenWhitelist ∧
            t.addressWhitelist (t.whitelistOffsetByAddress addr).toNat = addr) ∧
        whitelisted t = listedAfter ∅ [.add 0x1#160, .add 0x2#160, .delete 0x1#160, .add 0x1#160] :=
  ⟨rfl, fun _ => rfl, whitelist_consistent GovernanceState.empty rfl (fun _ => rfl) _⟩

end Tangerine.Proof.Whitelist
