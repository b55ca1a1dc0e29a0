import Mathlib.Logic.Basic

/-! Loops with a condition, a `break` and a panic, run with fuel, and `for` loops over a list. -/

namespace Tangerine.Library

/-- How a run ends without a result: a panic, or no fuel left. -/
inductive Halt where
  | panic (message : String)
  | outOfFuel
deriving DecidableEq, Repr

/-- How one iteration of a loop's body ends: on to the next test, or out of the loop. -/
inductive Iteration (State : Type) where
  | next (state : State)
  | exit (state : State)
deriving DecidableEq, Repr

section WhileLoop

variable {State : Type} (condition : State → Bool) (body : State → Except Halt (Iteration State))

/-- `for condition { body }`, run for at most `fuel` tests of the condition. -/
def whileLoop : Nat → State → Except Halt State
  | 0, _ => .error .outOfFuel
  | fuel + 1, state =>
    if condition state then
      match body state with
      | .ok (.next state) => whileLoop fuel state
      | .ok (.exit state) => .ok state
      | .error halt => .error halt
    else .ok state

@[simp] theorem whileLoop_zero (state : State) :
    whileLoop condition body 0 state = .error .outOfFuel := rfl

theorem whileLoop_of_false {state : State} (fuel : Nat) (stops : condition state = false) :
    whileLoop condition body (fuel + 1) state = .ok state := by
  simp [whileLoop, stops]

theorem whileLoop_next {state next : State} (fuel : Nat) (holds : condition state = true)
    (stepped : body state = .ok (.next next)) :
    whileLoop condition body (fuel + 1) state = whileLoop condition body fuel next := by
  simp [whileLoop, holds, stepped]

theorem whileLoop_exit {state next : State} (fuel : Nat) (holds : condition state = true)
    (exited : body state = .ok (.exit next)) :
    whileLoop condition body (fuel + 1) state = .ok next := by
  simp [whileLoop, holds, exited]

theorem whileLoop_halt {state : State} {halt : Halt} (fuel : Nat) (holds : condition state = true)
    (halted : body state = .error halt) :
    whileLoop condition body (fuel + 1) state = .error halt := by
  simp [whileLoop, holds, halted]

/-- What holds of the states a loop leaves with. -/
theorem whileLoop_spec (invariant post : State → Prop)
    (onNext : ∀ state next, invariant state → condition state = true →
      body state = .ok (.next next) → invariant next)
    (onExit : ∀ state next, invariant state → condition state = true →
      body state = .ok (.exit next) → post next)
    (onStop : ∀ state, invariant state → condition state = false → post state)
    {fuel : Nat} {state result : State} (holds : invariant state)
    (left : whileLoop condition body fuel state = .ok result) : post result := by
  induction fuel generalizing state with
  | zero => simp at left
  | succ fuel inductionHypothesis =>
      cases tested : condition state
      · rw [whileLoop_of_false condition body _ tested, Except.ok.injEq] at left
        exact left ▸ onStop state holds tested
      · cases stepped : body state with
        | error halt => simp [whileLoop_halt condition body _ tested stepped] at left
        | ok iteration =>
            cases iteration with
            | next next =>
                rw [whileLoop_next condition body _ tested stepped] at left
                exact inductionHypothesis (onNext state next holds tested stepped) left
            | exit next =>
                rw [whileLoop_exit condition body _ tested stepped, Except.ok.injEq] at left
                exact left ▸ onExit state next holds tested stepped

/-- A body that lowers a measure leaves the loop once the fuel exceeds the measure. -/
theorem whileLoop_of_measure (invariant : State → Prop) (measure : State → Nat)
    (step : ∀ state, invariant state → condition state = true →
      ∃ next, body state = .ok (.next next) ∧ invariant next ∧ measure next < measure state)
    {fuel : Nat} {state : State} (holds : invariant state) (enough : measure state < fuel) :
    ∃ result, whileLoop condition body fuel state = .ok result ∧ invariant result ∧
      condition result = false := by
  induction fuel generalizing state with
  | zero => omega
  | succ fuel inductionHypothesis =>
      cases tested : condition state
      · exact ⟨state, whileLoop_of_false condition body fuel tested, holds, tested⟩
      · obtain ⟨next, stepped, kept, lower⟩ := step state holds tested
        rw [whileLoop_next condition body fuel tested stepped]
        exact inductionHypothesis kept (by omega)

end WhileLoop

section ForLoop

variable {Item State : Type}

/-- `for item := range items { body }`, where an iteration may `break`. -/
def forBreak (body : State → Item → Iteration State) : List Item → State → State
  | [], state => state
  | item :: items, state =>
    match body state item with
    | .next state => forBreak body items state
    | .exit state => state

/-- An invariant of every iteration of a `for` loop with a `break` holds when it ends. -/
theorem forBreak_spec (invariant post : State → Prop) {body : State → Item → Iteration State}
    {items : List Item}
    (step : ∀ state item, item ∈ items → invariant state →
      match body state item with
      | .next next => invariant next
      | .exit next => post next)
    (done : ∀ state, invariant state → post state) {state : State} (holds : invariant state) :
    post (forBreak body items state) := by
  induction items generalizing state with
  | nil => exact done state holds
  | cons item items inductionHypothesis =>
      have stepped := step state item List.mem_cons_self holds
      rw [forBreak]
      split
      · rename_i next iterated
        rw [iterated] at stepped
        exact inductionHypothesis
          (fun state item member => step state item (List.mem_cons_of_mem _ member)) stepped
      · rename_i next iterated
        rw [iterated] at stepped
        exact stepped

end ForLoop

end Tangerine.Library
