import Mathlib.Logic.Basic

/-! Undo logs whose undo leads back to a state equivalent to the one they started from. -/

namespace Tangerine.Library.UndoLog

variable {State Entry : Type} (undo : Entry → State → Option State)

/-- Undoes the entries of a log, the last one first; `none` when one of the undos fails. -/
def undoAll : List Entry → State → Option State
  | [], state => some state
  | entry :: rest, state => (undoAll rest state).bind (undo entry)

@[simp] theorem undoAll_nil (state : State) : undoAll undo [] state = some state := rfl

theorem undoAll_cons (entry : Entry) (rest : List Entry) (state : State) :
    undoAll undo (entry :: rest) state = (undoAll undo rest state).bind (undo entry) := rfl

/-- A log of two stretches is undone later stretch first. -/
theorem undoAll_append (first second : List Entry) (state : State) :
    undoAll undo (first ++ second) state = (undoAll undo second state).bind (undoAll undo first) := by
  induction first with
  | nil =>
      rw [List.nil_append]
      cases undoAll undo second state <;> rfl
  | cons entry rest inductionHypothesis =>
      rw [List.cons_append, undoAll_cons, inductionHypothesis]
      cases undoAll undo second state <;> rfl

/-- What holds before every undo of a log's entries and is kept by each holds after them all. -/
theorem undoAll_invariant {invariant : State → Prop} {log : List Entry}
    (kept : ∀ entry ∈ log, ∀ state undone, invariant state → undo entry state = some undone →
      invariant undone)
    {state undone : State} (holds : invariant state) (undid : undoAll undo log state = some undone) :
    invariant undone := by
  induction log generalizing undone with
  | nil => cases undid; exact holds
  | cons entry rest inductionHypothesis =>
      rw [undoAll_cons] at undid
      obtain ⟨middle, undidRest, undidEntry⟩ := Option.bind_eq_some_iff.mp undid
      have middleHolds := inductionHypothesis (fun entry member => kept entry (by simp [member]))
        undidRest
      exact kept entry (by simp) middle undone middleHolds undidEntry

variable (equiv : State → State → Prop)

/-- Undoing respects the equivalence. -/
def Respects : Prop :=
  ∀ entry state state' undone, equiv state state' → undo entry state' = some undone →
    ∃ undone', undo entry state = some undone' ∧ equiv undone' undone

/-- Undoing `log` from `state` succeeds and leads back to a state equivalent to `start`. -/
def Undoes (log : List Entry) (start state : State) : Prop :=
  ∃ undone, undoAll undo log state = some undone ∧ equiv undone start

variable {undo equiv}

/-- A whole log's undo respects the equivalence when each entry's does. -/
theorem undoAll_respects (respects : Respects undo equiv) {log : List Entry}
    {state state' undone : State} (equivalent : equiv state state')
    (undid : undoAll undo log state' = some undone) :
    ∃ undone', undoAll undo log state = some undone' ∧ equiv undone' undone := by
  induction log generalizing undone with
  | nil => cases undid; exact ⟨state, rfl, equivalent⟩
  | cons entry rest inductionHypothesis =>
      rw [undoAll_cons] at undid
      obtain ⟨middle, undidRest, undidEntry⟩ := Option.bind_eq_some_iff.mp undid
      obtain ⟨middle', undidRest', middleEquivalent⟩ := inductionHypothesis undidRest
      obtain ⟨undone', undidEntry', undoneEquivalent⟩ :=
        respects entry middle' middle undone middleEquivalent undidEntry
      exact ⟨undone', by rw [undoAll_cons, undidRest', Option.bind_some, undidEntry'],
        undoneEquivalent⟩

/-- A log that leads back from a state leads back from every state equivalent to it. -/
theorem Undoes.of_equiv_state (respects : Respects undo equiv)
    (transitive : ∀ {first second third}, equiv first second → equiv second third → equiv first third)
    {log : List Entry} {start state state' : State} (undoes : Undoes undo equiv log start state')
    (equivalent : equiv state state') : Undoes undo equiv log start state := by
  obtain ⟨undone, undid, undoneEquivalent⟩ := undoes
  obtain ⟨undone', undid', equivalent'⟩ := undoAll_respects respects equivalent undid
  exact ⟨undone', undid', transitive equivalent' undoneEquivalent⟩

/-- The empty log leads back from every state equivalent to the start. -/
theorem Undoes.of_equiv {start state : State} (equivalent : equiv state start) :
    Undoes undo equiv [] start state :=
  ⟨state, rfl, equivalent⟩

theorem undoes_nil (reflexive : ∀ state, equiv state state) (state : State) :
    Undoes undo equiv [] state state :=
  .of_equiv (reflexive state)

/-- One entry whose undo leads back. -/
theorem Undoes.single {entry : Entry} {start state undone : State}
    (undid : undo entry state = some undone) (equivalent : equiv undone start) :
    Undoes undo equiv [entry] start state :=
  ⟨undone, undid, equivalent⟩

/-- Two stretches of a log, each leading back to where the other one starts, lead back together. -/
theorem Undoes.append (respects : Respects undo equiv)
    (transitive : ∀ {first second third}, equiv first second → equiv second third → equiv first third)
    {first second : List Entry} {start middle state : State}
    (undoesFirst : Undoes undo equiv first start middle)
    (undoesSecond : Undoes undo equiv second middle state) :
    Undoes undo equiv (first ++ second) start state := by
  obtain ⟨undoneSecond, undidSecond, secondEquivalent⟩ := undoesSecond
  obtain ⟨undoneFirst, undidFirst, firstEquivalent⟩ := undoesFirst
  obtain ⟨undone, undid, equivalent⟩ := undoAll_respects respects secondEquivalent undidFirst
  exact ⟨undone, by rw [undoAll_append, undidSecond, Option.bind_some, undid],
    transitive equivalent firstEquivalent⟩

/-- A log whose last stretch has been undone already leads back through what is left of it. -/
theorem Undoes.of_undoAll_suffix {front back : List Entry} {start state state' : State}
    (undoes : Undoes undo equiv (front ++ back) start state)
    (undidBack : undoAll undo back state = some state') :
    Undoes undo equiv front start state' := by
  obtain ⟨undone, undid, equivalent⟩ := undoes
  rw [undoAll_append, undidBack, Option.bind_some] at undid
  exact ⟨undone, undid, equivalent⟩

end Tangerine.Library.UndoLog
