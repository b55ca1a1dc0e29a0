import Mathlib.Logic.Basic

/-! Binary search for the first index at which a predicate holds (Go's `sort.Search`). -/

namespace Tangerine.Library.Search

variable (f : Nat → Bool)

/-- The loop of `sort.Search` over `[i, j)`, run at most `fuel` times. -/
def searchWithin : Nat → Nat → Nat → Nat
  | 0, i, _ => i
  | fuel + 1, i, j =>
    if i < j then
      let h := (i + j) / 2
      if !f h then searchWithin fuel (h + 1) j else searchWithin fuel i h
    else i

/-- `sort.Search(n, f)`: each round shrinks the interval, so `n` rounds suffice. -/
def search (n : Nat) : Nat := searchWithin f n 0 n

/-- The search's invariant over `[i, j)` within the bound `n`. -/
structure Brackets (n i j : Nat) : Prop where
  ordered : i ≤ j
  within : j ≤ n
  below : ∀ k < i, f k = false
  above : ∀ k, j ≤ k → k < n → f k = true

variable {f}

/-- One round keeps the invariant, whichever half it keeps. -/
theorem Brackets.step {n i j : Nat} (brackets : Brackets f n i j) (open_ : i < j)
    (monotone : ∀ a b, a ≤ b → b < n → f a = true → f b = true) :
    (f ((i + j) / 2) = false → Brackets f n ((i + j) / 2 + 1) j) ∧
      (f ((i + j) / 2) = true → Brackets f n i ((i + j) / 2)) := by
  constructor
  · intro fails
    refine ⟨by omega, brackets.within, fun k below => ?_, brackets.above⟩
    by_cases earlier : k < i
    · exact brackets.below k earlier
    · -- an index up to the midpoint fails too, or the midpoint would hold
      cases holds : f k with
      | false => rfl
      | true =>
          have := monotone k ((i + j) / 2) (by omega) (by have := brackets.within; omega) holds
          rw [fails] at this
          exact this.symm
  · intro holds
    refine ⟨by omega, by have := brackets.within; omega, brackets.below, fun k above bounded => ?_⟩
    exact monotone ((i + j) / 2) k above bounded holds

/-- With fuel for every round left, the loop ends at the boundary of the invariant. -/
theorem searchWithin_brackets {n : Nat}
    (monotone : ∀ a b, a ≤ b → b < n → f a = true → f b = true) :
    ∀ (fuel i j : Nat), Brackets f n i j → j - i ≤ fuel →
      Brackets f n (searchWithin f fuel i j) (searchWithin f fuel i j)
  | 0, i, j, brackets, enough => by
      obtain rfl : j = i := by have := brackets.ordered; omega
      exact brackets
  | fuel + 1, i, j, brackets, enough => by
      rw [searchWithin]
      by_cases open_ : i < j
      · rw [if_pos open_]
        have rounds := brackets.step open_ monotone
        cases holds : f ((i + j) / 2) with
        | false =>
            simp only [holds, Bool.not_false, if_true]
            exact searchWithin_brackets monotone fuel _ _ (rounds.1 holds) (by omega)
        | true =>
            simp only [holds, Bool.not_true, Bool.false_eq_true, if_false]
            exact searchWithin_brackets monotone fuel _ _ (rounds.2 holds) (by omega)
      · rw [if_neg open_]
        obtain rfl : j = i := by have := brackets.ordered; omega
        exact brackets

/-- `sort.Search` over an upward-closed predicate returns the first index where it holds. -/
theorem search_spec {n : Nat} (monotone : ∀ a b, a ≤ b → b < n → f a = true → f b = true) :
    search f n ≤ n ∧ (∀ k < search f n, f k = false) ∧
      (search f n < n → f (search f n) = true) := by
  have brackets := searchWithin_brackets monotone n 0 n
    ⟨Nat.zero_le n, Nat.le_refl n, fun _ none => absurd none (Nat.not_lt_zero _),
      fun k above bounded => absurd bounded (by omega)⟩ (by omega)
  exact ⟨brackets.within, brackets.below, fun bounded => brackets.above _ (Nat.le_refl _) bounded⟩

/-- The first index where a predicate holds is the only one with the two properties. -/
theorem search_eq_of_first {n k : Nat}
    (monotone : ∀ a b, a ≤ b → b < n → f a = true → f b = true)
    (bounded : k < n) (holds : f k = true) (before : ∀ i < k, f i = false) : search f n = k := by
  obtain ⟨within, below, found⟩ := search_spec monotone
  rcases Nat.lt_trichotomy (search f n) k with earlier | same | later
  · have := before _ earlier
    rw [found (by omega)] at this
    exact absurd this (by decide)
  · exact same
  · have := below k later
    rw [holds] at this
    exact absurd this (by decide)

end Tangerine.Library.Search
