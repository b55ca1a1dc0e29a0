import Mathlib.Logic.Function.Basic
import Mathlib.Data.Set.Insert
import Mathlib.Algebra.Order.BigOperators.Group.Finset

/-! An array of keyed entries beside an index map holding each key's position plus one. -/

namespace Tangerine.Library.IndexedArray

open Function

variable {Entry Key : Type}

/-- The stored index map inverts the first `length` entries. -/
structure Inverse (key : Entry → Option Key) (entries : Nat → Entry) (length : Nat)
    (index : Key → Nat) : Prop where
  indexed : ∀ position, position < length →
    ∃ k, key (entries position) = some k ∧ index k = position + 1
  located : ∀ k, index k ≠ 0 → index k ≤ length ∧ key (entries (index k - 1)) = some k

/-- The keys of the first `length` entries. -/
def keys (key : Entry → Option Key) (entries : Nat → Entry) (length : Nat) : Set Key :=
  {k | ∃ position, position < length ∧ key (entries position) = some k}

variable {key : Entry → Option Key} {entries : Nat → Entry} {length : Nat} {index : Key → Nat}

theorem inverse_empty (key : Entry → Option Key) (entries : Nat → Entry) :
    Inverse key entries 0 (fun _ => 0) :=
  ⟨fun _ below => absurd below (Nat.not_lt_zero _), fun _ nonzero => absurd rfl nonzero⟩

theorem Inverse.index_of_key (inverse : Inverse key entries length index) {position : Nat}
    (below : position < length) {k : Key} (keyed : key (entries position) = some k) :
    index k = position + 1 := by
  obtain ⟨k', keyed', stored⟩ := inverse.indexed position below
  rw [keyed] at keyed'
  cases keyed'
  exact stored

/-- Two entries below the length with one key are one entry. -/
theorem Inverse.position_unique (inverse : Inverse key entries length index)
    {first second : Nat} (firstBelow : first < length) (secondBelow : second < length)
    {k : Key} (firstKeyed : key (entries first) = some k)
    (secondKeyed : key (entries second) = some k) : first = second := by
  have firstIndex := inverse.index_of_key firstBelow firstKeyed
  have secondIndex := inverse.index_of_key secondBelow secondKeyed
  omega

theorem Inverse.mem_keys_iff (inverse : Inverse key entries length index) (k : Key) :
    k ∈ keys key entries length ↔ index k ≠ 0 := by
  constructor
  · rintro ⟨position, below, keyed⟩
    rw [inverse.index_of_key below keyed]
    exact Nat.succ_ne_zero _
  · intro nonzero
    obtain ⟨bounded, keyed⟩ := inverse.located k nonzero
    exact ⟨index k - 1, by omega, keyed⟩

/-- Slots past the end do not matter. -/
theorem Inverse.update_outside (inverse : Inverse key entries length index) {slot : Nat}
    (outside : length ≤ slot) (entry : Entry) :
    Inverse key (update entries slot entry) length index := by
  constructor
  · intro position below
    rw [update_of_ne (by omega)]
    exact inverse.indexed position below
  · intro k nonzero
    obtain ⟨bounded, keyed⟩ := inverse.located k nonzero
    rw [update_of_ne (by omega)]
    exact ⟨bounded, keyed⟩

/-- Only the keys of the entries below the length matter. -/
theorem Inverse.congr_keys (inverse : Inverse key entries length index) {entries' : Nat → Entry}
    (sameKeys : ∀ position, position < length → key (entries' position) = key (entries position)) :
    Inverse key entries' length index := by
  constructor
  · intro position below
    rw [sameKeys position below]
    exact inverse.indexed position below
  · intro k nonzero
    obtain ⟨bounded, keyed⟩ := inverse.located k nonzero
    rw [sameKeys _ (by omega)]
    exact ⟨bounded, keyed⟩

/-- Rewriting an entry with one of the same key keeps the index. -/
theorem Inverse.update_sameKey (inverse : Inverse key entries length index) {position : Nat}
    {entry : Entry} (sameKey : key entry = key (entries position)) :
    Inverse key (update entries position entry) length index := by
  apply inverse.congr_keys
  intro slot _
  by_cases here : slot = position
  · subst here
    rw [update_self, sameKey]
  · rw [update_of_ne here]

theorem keys_push {entry : Entry} {k : Key} (keyed : key entry = some k) :
    keys key (update entries length entry) (length + 1) = insert k (keys key entries length) := by
  ext k'
  constructor
  · rintro ⟨slot, slotBelow, keyedSlot⟩
    by_cases last : slot = length
    · subst last
      rw [update_self, keyed] at keyedSlot
      exact Or.inl (Option.some.inj keyedSlot).symm
    · rw [update_of_ne last] at keyedSlot
      exact Or.inr ⟨slot, by omega, keyedSlot⟩
  · rintro (same | ⟨slot, slotBelow, keyedSlot⟩)
    · exact ⟨length, by omega, by rw [update_self, keyed, same]⟩
    · exact ⟨slot, by omega, by rw [update_of_ne (by omega), keyedSlot]⟩

theorem Inverse.keys_removeLast (inverse : Inverse key entries length index)
    (nonempty : 0 < length) {k : Key} (keyed : key (entries (length - 1)) = some k) :
    keys key entries (length - 1) = keys key entries length \ {k} := by
  ext k'
  constructor
  · rintro ⟨slot, slotBelow, keyedSlot⟩
    refine ⟨⟨slot, by omega, keyedSlot⟩, ?_⟩
    rintro rfl
    have := inverse.position_unique (by omega) (by omega : length - 1 < length) keyedSlot keyed
    omega
  · rintro ⟨⟨slot, slotBelow, keyedSlot⟩, other⟩
    refine ⟨slot, ?_, keyedSlot⟩
    by_contra atLast
    have last : slot = length - 1 := by omega
    rw [last, keyed] at keyedSlot
    exact other (Option.some.inj keyedSlot).symm

theorem Inverse.keys_moveLast (inverse : Inverse key entries length index) {position : Nat}
    (hole : position < length - 1) {removed : Key}
    (removedKeyed : key (entries position) = some removed) :
    keys key (update entries position (entries (length - 1))) (length - 1) =
      keys key entries length \ {removed} := by
  ext k
  constructor
  · rintro ⟨slot, slotBelow, keyedSlot⟩
    by_cases here : slot = position
    · subst here
      rw [update_self] at keyedSlot
      refine ⟨⟨length - 1, by omega, keyedSlot⟩, ?_⟩
      rintro rfl
      have := inverse.position_unique (by omega) (by omega : slot < length) keyedSlot
        removedKeyed
      omega
    · rw [update_of_ne here] at keyedSlot
      refine ⟨⟨slot, by omega, keyedSlot⟩, ?_⟩
      rintro rfl
      exact here (inverse.position_unique (by omega) (by omega) keyedSlot removedKeyed)
  · rintro ⟨⟨slot, slotBelow, keyedSlot⟩, other⟩
    have notHole : slot ≠ position := by
      rintro rfl
      exact other (Option.some.inj (keyedSlot.symm.trans removedKeyed))
    by_cases last : slot = length - 1
    · subst last
      exact ⟨position, by omega, by rw [update_self, keyedSlot]⟩
    · exact ⟨slot, by omega, by rw [update_of_ne notHole, keyedSlot]⟩

section Totals

variable {Weight : Type} [AddCommMonoid Weight] (weight : Entry → Weight)

/-- The total weight of the first `length` entries. -/
def total (entries : Nat → Entry) (length : Nat) : Weight :=
  ∑ position ∈ Finset.range length, weight (entries position)

theorem total_push (entry : Entry) :
    total weight (update entries length entry) (length + 1) =
      total weight entries length + weight entry := by
  unfold total
  rw [Finset.sum_range_succ, update_self]
  congr 1
  apply Finset.sum_congr rfl
  intro position member
  rw [update_of_ne (Finset.mem_range.mp member).ne]

theorem total_update_outside {slot : Nat} (outside : length ≤ slot) (entry : Entry) :
    total weight (update entries slot entry) length = total weight entries length := by
  apply Finset.sum_congr rfl
  intro position member
  have below := Finset.mem_range.mp member
  rw [update_of_ne (by omega)]

/-- Rewriting one entry below the length trades its weight for the new one. -/
theorem total_update {position : Nat} (below : position < length) (entry : Entry) :
    total weight (update entries position entry) length + weight (entries position) =
      total weight entries length + weight entry := by
  have member : position ∈ Finset.range length := Finset.mem_range.mpr below
  have others : ∑ slot ∈ (Finset.range length).erase position,
      weight (update entries position entry slot) =
      ∑ slot ∈ (Finset.range length).erase position, weight (entries slot) := by
    apply Finset.sum_congr rfl
    intro slot otherSlot
    rw [update_of_ne (Finset.ne_of_mem_erase otherSlot)]
  unfold total
  rw [← Finset.add_sum_erase _ _ member,
    ← Finset.add_sum_erase _ (fun slot => weight (entries slot)) member, update_self, others]
  ac_rfl

theorem total_removeLast (nonempty : 0 < length) :
    total weight entries (length - 1) + weight (entries (length - 1)) =
      total weight entries length := by
  obtain ⟨previous, rfl⟩ : ∃ previous, length = previous + 1 := ⟨length - 1, by omega⟩
  simp [total, Finset.sum_range_succ]

/-- Moving the last entry into the hole at `position` drops the hole's weight. -/
theorem total_moveLast {position : Nat} (hole : position < length - 1) :
    total weight (update entries position (entries (length - 1))) (length - 1) +
      weight (entries position) = total weight entries length := by
  rw [total_update weight hole, total_removeLast weight (by omega)]

/-- Deletion at any position below the length drops exactly the deleted entry's weight. -/
theorem total_swapRemove {position : Nat} (below : position < length) (filler : Entry) :
    total weight (update (update entries position (entries (length - 1))) (length - 1) filler)
      (length - 1) + weight (entries position) = total weight entries length := by
  rw [total_update_outside weight (le_refl _)]
  by_cases last : position = length - 1
  · subst last
    rw [update_eq_self, total_removeLast weight (by omega)]
  · exact total_moveLast weight (by omega)

end Totals

theorem entry_le_total (weight : Entry → Nat) {position : Nat} (below : position < length) :
    weight (entries position) ≤ total weight entries length := by
  unfold total
  exact Finset.single_le_sum (fun slot _ => Nat.zero_le (weight (entries slot)))
    (Finset.mem_range.mpr below)

section Every

variable (good : Entry → Prop)

/-- Each of the first `length` entries is `good`. -/
def Every (entries : Nat → Entry) (length : Nat) : Prop :=
  ∀ position < length, good (entries position)

variable {good}

theorem Every.push (every : Every good entries length) {entry : Entry} (holds : good entry) :
    Every good (update entries length entry) (length + 1) := by
  intro position below
  by_cases last : position = length
  · subst last
    rw [update_self]
    exact holds
  · rw [update_of_ne last]
    exact every position (by omega)

theorem Every.write (every : Every good entries length) {position : Nat} {entry : Entry}
    (holds : good entry) : Every good (update entries position entry) length := by
  intro other below
  by_cases same : other = position
  · subst same
    rw [update_self]
    exact holds
  · rw [update_of_ne same]
    exact every other below

/-- Deletion by moving the last entry into the hole: every entry left was already there. -/
theorem Every.swapRemove (every : Every good entries length) (position : Nat) (filler : Entry) :
    Every good (update (update entries position (entries (length - 1))) (length - 1) filler)
      (length - 1) := by
  intro other below
  rw [update_of_ne (by omega)]
  by_cases hole : other = position
  · subst hole
    rw [update_self]
    exact every (length - 1) (by omega)
  · rw [update_of_ne hole]
    exact every other (by omega)

end Every

variable [DecidableEq Key]

/-- Appending an entry with a fresh key and recording its position keeps the index. -/
theorem Inverse.push (inverse : Inverse key entries length index) {entry : Entry} {k : Key}
    (keyed : key entry = some k) (fresh : index k = 0) :
    Inverse key (update entries length entry) (length + 1) (update index k (length + 1)) := by
  constructor
  · intro position below
    by_cases last : position = length
    · subst last
      exact ⟨k, by rw [update_self, keyed], update_self _ _ _⟩
    · obtain ⟨k', keyed', stored⟩ := inverse.indexed position (by omega)
      have other : k' ≠ k := by
        rintro rfl
        omega
      exact ⟨k', by rw [update_of_ne last, keyed'], by rw [update_of_ne other, stored]⟩
  · intro k' nonzero
    by_cases same : k' = k
    · subst same
      rw [update_self]
      exact ⟨le_refl _, by rw [Nat.add_sub_cancel, update_self, keyed]⟩
    · rw [update_of_ne same] at nonzero ⊢
      obtain ⟨bounded, keyed'⟩ := inverse.located k' nonzero
      exact ⟨by omega, by rw [update_of_ne (by omega), keyed']⟩

/-- Dropping the last entry and clearing its key keeps the index. -/
theorem Inverse.removeLast (inverse : Inverse key entries length index) (nonempty : 0 < length)
    {k : Key} (keyed : key (entries (length - 1)) = some k) :
    Inverse key entries (length - 1) (update index k 0) := by
  constructor
  · intro position below
    obtain ⟨k', keyed', stored⟩ := inverse.indexed position (by omega)
    have other : k' ≠ k := by
      rintro rfl
      have := inverse.index_of_key (by omega : length - 1 < length) keyed
      omega
    exact ⟨k', keyed', by rw [update_of_ne other, stored]⟩
  · intro k' nonzero
    by_cases same : k' = k
    · subst same
      simp at nonzero
    · rw [update_of_ne same] at nonzero ⊢
      obtain ⟨bounded, keyed'⟩ := inverse.located k' nonzero
      have notLast : index k' - 1 ≠ length - 1 := by
        intro atLast
        rw [atLast, keyed] at keyed'
        exact same (Option.some.inj keyed').symm
      exact ⟨by omega, keyed'⟩

/-- Moving the last entry into the hole at `position` keeps the index. -/
theorem Inverse.moveLast (inverse : Inverse key entries length index) {position : Nat}
    (hole : position < length - 1) {removed moved : Key}
    (removedKeyed : key (entries position) = some removed)
    (movedKeyed : key (entries (length - 1)) = some moved) :
    Inverse key (update entries position (entries (length - 1))) (length - 1)
      (update (update index moved (position + 1)) removed 0) := by
  have distinct : moved ≠ removed := by
    rintro rfl
    have := inverse.position_unique (by omega) (by omega : position < length) movedKeyed
      removedKeyed
    omega
  constructor
  · intro slot below
    by_cases here : slot = position
    · subst here
      exact ⟨moved, by rw [update_self, movedKeyed],
        by rw [update_of_ne distinct, update_self]⟩
    · obtain ⟨k, keyed, stored⟩ := inverse.indexed slot (by omega)
      have notRemoved : k ≠ removed := by
        rintro rfl
        exact here (inverse.position_unique (by omega) (by omega) keyed removedKeyed)
      have notMoved : k ≠ moved := by
        rintro rfl
        have := inverse.position_unique (by omega) (by omega : length - 1 < length) keyed
          movedKeyed
        omega
      exact ⟨k, by rw [update_of_ne here, keyed],
        by rw [update_of_ne notRemoved, update_of_ne notMoved, stored]⟩
  · intro k nonzero
    by_cases isRemoved : k = removed
    · subst isRemoved
      simp at nonzero
    · rw [update_of_ne isRemoved] at nonzero ⊢
      by_cases isMoved : k = moved
      · subst isMoved
        rw [update_self] at nonzero ⊢
        exact ⟨by omega, by rw [Nat.add_sub_cancel, update_self, movedKeyed]⟩
      · rw [update_of_ne isMoved] at nonzero ⊢
        obtain ⟨bounded, keyed⟩ := inverse.located k nonzero
        have notHole : index k - 1 ≠ position := by
          intro atHole
          rw [atHole, removedKeyed] at keyed
          exact isRemoved (Option.some.inj keyed).symm
        have notLast : index k - 1 ≠ length - 1 := by
          intro atLast
          rw [atLast, movedKeyed] at keyed
          exact isMoved (Option.some.inj keyed).symm
        exact ⟨by omega, by rw [update_of_ne notHole, keyed]⟩

/-- Deletion at any position below the length keeps the index. -/
theorem Inverse.swapRemove (inverse : Inverse key entries length index) {position : Nat}
    (below : position < length) {removed moved : Key}
    (removedKeyed : key (entries position) = some removed)
    (movedKeyed : key (entries (length - 1)) = some moved) (filler : Entry) :
    Inverse key (update (update entries position (entries (length - 1))) (length - 1) filler)
      (length - 1) (update (update index moved (position + 1)) removed 0) := by
  apply Inverse.update_outside _ (le_refl _)
  by_cases last : position = length - 1
  · subst last
    have same : moved = removed := Option.some.inj (movedKeyed.symm.trans removedKeyed)
    rw [same, update_idem, update_eq_self]
    exact inverse.removeLast (by omega) removedKeyed
  · exact inverse.moveLast (by omega) removedKeyed movedKeyed

/-- Giving the entry at `position` a new key keeps the index. -/
theorem Inverse.rekey (inverse : Inverse key entries length index) {position : Nat}
    (below : position < length) {old new : Key} {entry : Entry}
    (oldKeyed : key (entries position) = some old) (newKeyed : key entry = some new)
    (fresh : index new = 0 ∨ new = old) :
    Inverse key (update entries position entry) length
      (update (update index old 0) new (position + 1)) := by
  constructor
  · intro slot slotBelow
    by_cases here : slot = position
    · subst here
      exact ⟨new, by rw [update_self, newKeyed], update_self _ _ _⟩
    · obtain ⟨k, keyed, stored⟩ := inverse.indexed slot slotBelow
      have notOld : k ≠ old := by
        rintro rfl
        exact here (inverse.position_unique slotBelow below keyed oldKeyed)
      have notNew : k ≠ new := by
        rintro rfl
        rcases fresh with absent | same
        · omega
        · exact notOld same
      exact ⟨k, by rw [update_of_ne here, keyed],
        by rw [update_of_ne notNew, update_of_ne notOld, stored]⟩
  · intro k nonzero
    by_cases isNew : k = new
    · subst isNew
      rw [update_self]
      exact ⟨by omega, by rw [Nat.add_sub_cancel, update_self, newKeyed]⟩
    · rw [update_of_ne isNew] at nonzero ⊢
      by_cases isOld : k = old
      · subst isOld
        simp at nonzero
      · rw [update_of_ne isOld] at nonzero ⊢
        obtain ⟨bounded, keyed⟩ := inverse.located k nonzero
        have notHere : index k - 1 ≠ position := by
          intro atHere
          rw [atHere, oldKeyed] at keyed
          exact isOld (Option.some.inj keyed).symm
        exact ⟨bounded, by rw [update_of_ne notHere, keyed]⟩

end Tangerine.Library.IndexedArray
