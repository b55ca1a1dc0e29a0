import Mathlib.Data.List.AList
import Mathlib.Data.Finset.Card

/-! Keys held by holders, connected at their first holder and disconnected at their last. -/

namespace Tangerine.Library

variable {Key Holder : Type} [DecidableEq Key]

/-- The holders of each key. -/
abbrev HolderMap (Key Holder : Type) := AList fun _ : Key => Finset Holder

/-- The holders of `key`: none when it is absent. -/
def holdersOf (m : HolderMap Key Holder) (key : Key) : Finset Holder := (m.lookup key).getD ∅

/-- No key is present without a holder. -/
def NoEmpty (m : HolderMap Key Holder) : Prop :=
  ∀ key holders, m.lookup key = some holders → holders.Nonempty

/-- Each present key has been connected once more than it was disconnected. -/
def Balanced (connected disconnected : Key → Nat) (m : HolderMap Key Holder) : Prop :=
  ∀ key, connected key = disconnected key + if key ∈ m then 1 else 0

theorem noEmpty_empty : NoEmpty (∅ : HolderMap Key Holder) := by
  intro key holders found
  rw [AList.lookup_empty] at found
  cases found

theorem holdersOf_insert (m : HolderMap Key Holder) (key key' : Key) (holders : Finset Holder) :
    holdersOf (m.insert key holders) key' = if key' = key then holders else holdersOf m key' := by
  by_cases same : key' = key
  · rw [if_pos same, same, holdersOf, AList.lookup_insert]
    rfl
  · rw [if_neg same, holdersOf, AList.lookup_insert_ne same]
    rfl

theorem holdersOf_erase (m : HolderMap Key Holder) (key key' : Key) :
    holdersOf (m.erase key) key' = if key' = key then ∅ else holdersOf m key' := by
  by_cases same : key' = key
  · rw [if_pos same, same, holdersOf, AList.lookup_erase]
    rfl
  · rw [if_neg same, holdersOf, AList.lookup_erase_ne same]
    rfl

/-- Without empty entries, a key is present exactly when somebody holds it. -/
theorem NoEmpty.mem_iff {m : HolderMap Key Holder} (noEmpty : NoEmpty m) (key : Key) :
    key ∈ m ↔ holdersOf m key ≠ ∅ := by
  constructor
  · intro present
    obtain ⟨holders, found⟩ := Option.isSome_iff_exists.mp (AList.lookup_isSome.mpr present)
    rw [holdersOf, found, Option.getD_some]
    exact (noEmpty key holders found).ne_empty
  · intro held
    by_contra absent
    rw [holdersOf, AList.lookup_eq_none.mpr absent, Option.getD_none] at held
    exact held rfl

variable [DecidableEq Holder]

/-- `key` held by `holder` too; the flag says that nobody held it before. -/
def acquire (m : HolderMap Key Holder) (key : Key) (holder : Holder) : HolderMap Key Holder × Bool :=
  if (holdersOf m key).card > 0 then (m.insert key (insert holder (holdersOf m key)), false)
  else (m.insert key {holder}, true)

/-- `holder` lets go of `key`; the flag says that it was the last holder. -/
def release (m : HolderMap Key Holder) (key : Key) (holder : Holder) : HolderMap Key Holder × Bool :=
  if (holdersOf m key).card = 0 then (m, false)
  else if ((holdersOf m key).erase holder).card = 0 then (m.erase key, true)
  else (m.insert key ((holdersOf m key).erase holder), false)

/-! ### Acquiring -/

section Acquire

variable (m : HolderMap Key Holder) (key : Key) (holder : Holder)

theorem holdersOf_acquire (key' : Key) :
    holdersOf (acquire m key holder).1 key' =
      if key' = key then insert holder (holdersOf m key) else holdersOf m key' := by
  unfold acquire
  split
  · exact holdersOf_insert _ _ _ _
  · rename_i unheld
    have empty : holdersOf m key = ∅ := Finset.card_eq_zero.mp (Nat.eq_zero_of_not_pos unheld)
    rw [holdersOf_insert, empty, Finset.insert_empty]

theorem acquire_first : (acquire m key holder).2 = decide (holdersOf m key = ∅) := by
  unfold acquire
  split
  · rename_i held
    rw [decide_eq_false (fun empty => by rw [empty, Finset.card_empty] at held; omega)]
  · rename_i unheld
    rw [decide_eq_true (Finset.card_eq_zero.mp (Nat.eq_zero_of_not_pos unheld))]

theorem mem_acquire (key' : Key) : key' ∈ (acquire m key holder).1 ↔ key' = key ∨ key' ∈ m := by
  unfold acquire
  split <;> exact AList.mem_insert _

variable {m}

theorem NoEmpty.acquire (noEmpty : NoEmpty m) : NoEmpty (acquire m key holder).1 := by
  intro key' holders found
  have read : holdersOf (Tangerine.Library.acquire m key holder).1 key' = holders := by
    rw [holdersOf, found, Option.getD_some]
  rw [holdersOf_acquire] at read
  split at read
  · exact read ▸ Finset.insert_nonempty _ _
  · rename_i other
    rw [holdersOf] at read
    cases lookup : m.lookup key' with
    | none =>
        have present := (mem_acquire m key holder key').mp (AList.lookup_isSome.mp (by rw [found]; rfl))
        exact absurd (AList.lookup_isSome.mpr (present.resolve_left other)) (by rw [lookup]; simp)
    | some holders' =>
        rw [lookup, Option.getD_some] at read
        exact read ▸ noEmpty key' holders' lookup

/-- Acquiring connects the key when nobody held it, and keeps the count balanced. -/
theorem Balanced.acquire {connected disconnected : Key → Nat} (balanced : Balanced connected disconnected m)
    (noEmpty : NoEmpty m) :
    Balanced (fun key' => connected key' +
      if (Tangerine.Library.acquire m key holder).2 = true ∧ key' = key then 1 else 0)
      disconnected (Tangerine.Library.acquire m key holder).1 := by
  intro key'
  dsimp only
  rw [balanced key', acquire_first]
  by_cases same : key' = key
  · subst same
    rw [if_pos ((mem_acquire m key' holder key').mpr (Or.inl rfl))]
    by_cases unheld : holdersOf m key' = ∅
    · rw [if_neg (fun old => (noEmpty.mem_iff key').mp old unheld),
        if_pos ⟨decide_eq_true unheld, rfl⟩]
    · rw [if_pos ((noEmpty.mem_iff key').mpr unheld),
        if_neg (fun first => unheld (of_decide_eq_true first.1))]
  · have first : ¬(decide (holdersOf m key = ∅) = true ∧ key' = key) := fun first => same first.2
    rw [if_neg first, Nat.add_zero]
    by_cases present : key' ∈ m
    · rw [if_pos present, if_pos ((mem_acquire m key holder key').mpr (Or.inr present))]
    · rw [if_neg present,
        if_neg (fun now => present (((mem_acquire m key holder key').mp now).resolve_left same))]

end Acquire

/-! ### Releasing -/

section Release

variable (m : HolderMap Key Holder) (key : Key) (holder : Holder)

theorem holdersOf_release (key' : Key) :
    holdersOf (release m key holder).1 key' =
      if key' = key then (holdersOf m key).erase holder else holdersOf m key' := by
  unfold release
  split
  · rename_i unheld
    by_cases same : key' = key
    · rw [if_pos same, same, Finset.card_eq_zero.mp unheld, Finset.erase_empty]
    · rw [if_neg same]
  · split
    · rename_i last
      rw [holdersOf_erase]
      by_cases same : key' = key
      · rw [if_pos same, if_pos same, Finset.card_eq_zero.mp last]
      · rw [if_neg same, if_neg same]
    · exact holdersOf_insert _ _ _ _

theorem release_last :
    (release m key holder).2 = decide (holdersOf m key ≠ ∅ ∧ (holdersOf m key).erase holder = ∅) := by
  unfold release
  split
  · rename_i unheld
    rw [decide_eq_false (fun held => held.1 (Finset.card_eq_zero.mp unheld))]
  · rename_i held
    split
    · rename_i last
      rw [decide_eq_true ⟨fun empty => held (by rw [empty, Finset.card_empty]),
        Finset.card_eq_zero.mp last⟩]
    · rename_i other
      rw [decide_eq_false (fun gone => other (by rw [gone.2, Finset.card_empty]))]

variable {m}

theorem NoEmpty.release (noEmpty : NoEmpty m) : NoEmpty (release m key holder).1 := by
  unfold Tangerine.Library.release
  split
  · exact noEmpty
  · split
    · intro key' holders found
      by_cases same : key' = key
      · rw [same, AList.lookup_erase] at found
        cases found
      · rw [AList.lookup_erase_ne same] at found
        exact noEmpty key' holders found
    · rename_i other
      intro key' holders found
      by_cases same : key' = key
      · rw [same, AList.lookup_insert, Option.some_inj] at found
        rw [← found]
        exact Finset.card_pos.mp (Nat.pos_of_ne_zero other)
      · rw [AList.lookup_insert_ne same] at found
        exact noEmpty key' holders found

theorem NoEmpty.mem_release (noEmpty : NoEmpty m) (key' : Key) :
    key' ∈ (Tangerine.Library.release m key holder).1 ↔
      holdersOf (Tangerine.Library.release m key holder).1 key' ≠ ∅ :=
  (noEmpty.release key holder).mem_iff key'

/-- Releasing disconnects the key when its last holder lets go, and keeps the count balanced. -/
theorem Balanced.release {connected disconnected : Key → Nat}
    (balanced : Balanced connected disconnected m) (noEmpty : NoEmpty m) :
    Balanced connected (fun key' => disconnected key' +
      if (Tangerine.Library.release m key holder).2 = true ∧ key' = key then 1 else 0)
      (Tangerine.Library.release m key holder).1 := by
  intro key'
  dsimp only
  rw [balanced key', release_last]
  have present := noEmpty.mem_release key holder key'
  rw [holdersOf_release] at present
  by_cases same : key' = key
  · subst same
    rw [if_pos rfl] at present
    by_cases held : holdersOf m key' = ∅
    · have gone : key' ∉ (Tangerine.Library.release m key' holder).1 := fun now =>
        present.mp now (by rw [held, Finset.erase_empty])
      rw [if_neg (fun old => (noEmpty.mem_iff key').mp old held), if_neg gone,
        if_neg (fun last => (of_decide_eq_true last.1).1 held)]
    · by_cases last : (holdersOf m key').erase holder = ∅
      · rw [if_pos ((noEmpty.mem_iff key').mpr held), if_neg (fun now => present.mp now last),
          if_pos ⟨decide_eq_true ⟨held, last⟩, rfl⟩]
      · rw [if_pos ((noEmpty.mem_iff key').mpr held), if_pos (present.mpr last),
          if_neg (fun gone => last (of_decide_eq_true gone.1).2)]
  · rw [if_neg same] at present
    have last : ¬(decide (holdersOf m key ≠ ∅ ∧ (holdersOf m key).erase holder = ∅) = true ∧
        key' = key) := fun last => same last.2
    rw [if_neg last, Nat.add_zero]
    by_cases old : key' ∈ m
    · rw [if_pos old, if_pos (present.mpr ((noEmpty.mem_iff key').mp old))]
    · rw [if_neg old, if_neg (fun now => old ((noEmpty.mem_iff key').mpr (present.mp now)))]

end Release

end Tangerine.Library
