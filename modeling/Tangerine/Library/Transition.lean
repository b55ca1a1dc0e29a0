import Mathlib.Logic.Function.Basic
import Mathlib.Data.List.AList

/-! Reachability, the inversion of `Except` computations, and invariants of folds. -/

namespace Tangerine.Library

/-- A state is reachable when finitely many steps lead to it from an initial state. -/
inductive Reachable {State : Type} (step : State → State → Prop) (initial : State → Prop) :
    State → Prop
  | initial {state : State} : initial state → Reachable step initial state
  | step {state next : State} :
      Reachable step initial state → step state next → Reachable step initial next

/-- An invariant that holds initially and that every step keeps holds of every reachable state. -/
theorem Reachable.invariant {State : Type} {step : State → State → Prop}
    {initial : State → Prop} {invariant : State → Prop}
    (holdsInitially : ∀ state, initial state → invariant state)
    (preserved : ∀ state next, invariant state → step state next → invariant next)
    {state : State} (reachable : Reachable step initial state) : invariant state := by
  induction reachable with
  | initial start => exact holdsInitially _ start
  | step _ stepped inductionHypothesis => exact preserved _ _ inductionHypothesis stepped

section ExceptBind

variable {Error Value Result : Type}

@[simp] theorem except_bind_ok (value : Value) (continuation : Value → Except Error Result) :
    ((Except.ok value : Except Error Value) >>= continuation) = continuation value := rfl

@[simp] theorem except_bind_error (error : Error) (continuation : Value → Except Error Result) :
    ((Except.error error : Except Error Value) >>= continuation) = .error error := rfl

/-- A bound computation succeeds exactly when both halves do. -/
theorem except_bind_eq_ok {first : Except Error Value} {continuation : Value → Except Error Result}
    {result : Result} :
    first >>= continuation = .ok result ↔ ∃ value, first = .ok value ∧ continuation value = .ok result := by
  cases first with
  | error error => simp
  | ok value => simp

/-- A check followed by the rest succeeds exactly when both do. -/
@[simp] theorem except_check_bind_eq_ok {first : Except Error PUnit} {rest : Except Error Result}
    {result : Result} : (first >>= fun _ => rest) = .ok result ↔ first = .ok () ∧ rest = .ok result := by
  cases first with
  | error error => simp
  | ok value => simp

/-- A guard that reverts: the computation succeeds when the guard is off and the rest succeeds. -/
@[simp] theorem except_ite_error_eq_ok {condition : Prop} [Decidable condition] {error : Error}
    {rest : Except Error Value} {value : Value} :
    (if condition then Except.error error else rest) = .ok value ↔
      ¬condition ∧ rest = .ok value := by
  by_cases holds : condition <;> simp [holds]

/-- Relabelling the errors keeps the successes. -/
@[simp] theorem except_mapError_eq_ok {Error' : Type} {relabel : Error → Error'}
    {result : Except Error Value} {value : Value} :
    result.mapError relabel = .ok value ↔ result = .ok value := by
  cases result with
  | error error => exact ⟨fun mapped => (nomatch mapped), fun original => (nomatch original)⟩
  | ok _ => exact ⟨fun mapped => by cases mapped; rfl, fun original => by cases original; rfl⟩

/-- A loop of checks passes exactly when every check passes. -/
theorem except_forM_eq_ok {items : List Value} {check : Value → Except Error PUnit} :
    items.forM check = .ok () ↔ ∀ item ∈ items, check item = .ok () := by
  induction items with
  | nil => simp only [List.not_mem_nil, false_implies, implies_true, iff_true]; rfl
  | cons item rest inductionHypothesis =>
      change (check item >>= fun _ => rest.forM check) = .ok () ↔ _
      rw [except_bind_eq_ok, List.forall_mem_cons, ← inductionHypothesis]
      constructor
      · rintro ⟨⟨⟩, checked, rest⟩
        exact ⟨checked, rest⟩
      · rintro ⟨checked, rest⟩
        exact ⟨(), checked, rest⟩

end ExceptBind

section Folds

variable {State Item Error : Type}

/-- A property that every step of a left fold keeps holds of its result. -/
theorem foldl_invariant {invariant : State → Prop} {step : State → Item → State}
    (preserved : ∀ state item, invariant state → invariant (step state item))
    (items : List Item) {state : State} (holds : invariant state) :
    invariant (items.foldl step state) := by
  induction items generalizing state with
  | nil => exact holds
  | cons item rest inductionHypothesis => exact inductionHypothesis (preserved state item holds)

/-- A property every step of a left fold keeps, at the items folded over, holds of its result. -/
theorem foldl_invariant_of_mem {invariant : State → Prop} {step : State → Item → State}
    {items : List Item}
    (preserved : ∀ state item, item ∈ items → invariant state → invariant (step state item))
    {state : State} (holds : invariant state) : invariant (items.foldl step state) := by
  induction items generalizing state with
  | nil => exact holds
  | cons item rest inductionHypothesis =>
      exact inductionHypothesis
        (fun current later member => preserved current later (List.mem_cons_of_mem _ member))
        (preserved state item List.mem_cons_self holds)

/-- A left fold with an invariant that may also depend on the items still to come. -/
theorem foldl_invariant_rest {invariant : List Item → State → Prop} {step : State → Item → State}
    (preserved : ∀ item rest state, invariant (item :: rest) state → invariant rest (step state item))
    (items : List Item) {state : State} (holds : invariant items state) :
    invariant [] (items.foldl step state) := by
  induction items generalizing state with
  | nil => exact holds
  | cons item rest inductionHypothesis =>
      exact inductionHypothesis (preserved item rest state holds)

/-- A fallible fold with an invariant that may also depend on the items still to come. -/
theorem foldlM_invariant_rest {invariant : List Item → State → Prop}
    {step : State → Item → Except Error State}
    (preserved : ∀ item rest state next, invariant (item :: rest) state →
      step state item = .ok next → invariant rest next)
    (items : List Item) {state result : State} (holds : invariant items state)
    (folded : items.foldlM step state = .ok result) : invariant [] result := by
  induction items generalizing state with
  | nil =>
      cases folded
      exact holds
  | cons item rest inductionHypothesis =>
      rw [List.foldlM_cons, except_bind_eq_ok] at folded
      obtain ⟨next, stepped, restFolded⟩ := folded
      exact inductionHypothesis (preserved item rest state next holds stepped) restFolded

/-- The same for a fallible fold: every step that succeeds keeps the property. -/
theorem foldlM_invariant {invariant : State → Prop} {step : State → Item → Except Error State}
    (preserved : ∀ state item next, invariant state → step state item = .ok next → invariant next)
    (items : List Item) {state result : State} (holds : invariant state)
    (folded : items.foldlM step state = .ok result) : invariant result := by
  have preservedRest : ∀ item (rest : List Item) current next, invariant current →
      step current item = .ok next → invariant next :=
    fun item _ current next => preserved current item next
  exact @foldlM_invariant_rest _ _ _ (fun _ current => invariant current) _ preservedRest items _ _
    holds folded

/-- A fold each of whose steps keeps a view of the state keeps it. -/
theorem foldl_preserves {View : Type} (view : State → View) {step : State → Item → State}
    (kept : ∀ state item, view (step state item) = view state) (items : List Item)
    (state : State) : view (items.foldl step state) = view state := by
  have preserved : ∀ current item, view current = view state →
      view (step current item) = view state :=
    fun current item same => (kept current item).trans same
  exact foldl_invariant preserved items rfl

theorem foldlM_preserves {View : Type} (view : State → View)
    {step : State → Item → Except Error State}
    (kept : ∀ state item next, step state item = .ok next → view next = view state)
    (items : List Item) {state result : State} (folded : items.foldlM step state = .ok result) :
    view result = view state := by
  have preserved : ∀ current item next, view current = view state →
      step current item = .ok next → view next = view state :=
    fun current item next same stepped => (kept current item next stepped).trans same
  exact foldlM_invariant preserved items rfl folded

/-! Loops over entries with distinct keys, each iteration writing only at its own key. -/

section Pointwise

variable {Entry Key View : Type} (view : State → Key → View) (keyOf : Entry → Key)

theorem foldlM_pointwise_of_not_mem {step : State → Entry → Except Error State}
    (others : ∀ state entry next key, step state entry = .ok next → key ≠ keyOf entry →
      view next key = view state key)
    {entries : List Entry} {key : Key} (absent : ∀ entry ∈ entries, keyOf entry ≠ key)
    {state result : State} (folded : entries.foldlM step state = .ok result) :
    view result key = view state key := by
  induction entries generalizing state with
  | nil =>
      cases folded
      rfl
  | cons entry rest inductionHypothesis =>
      rw [List.foldlM_cons, except_bind_eq_ok] at folded
      obtain ⟨next, stepped, restFolded⟩ := folded
      rw [inductionHypothesis (fun later member => absent later (by simp [member])) restFolded]
      exact others state entry next key stepped (absent entry (by simp)).symm

theorem foldlM_pointwise_of_mem {step : State → Entry → Except Error State}
    (change : View → Entry → View)
    (written : ∀ state entry next, step state entry = .ok next →
      view next (keyOf entry) = change (view state (keyOf entry)) entry)
    (others : ∀ state entry next key, step state entry = .ok next → key ≠ keyOf entry →
      view next key = view state key)
    {entries : List Entry} (distinct : (entries.map keyOf).Nodup) {entry : Entry}
    (member : entry ∈ entries) {state result : State}
    (folded : entries.foldlM step state = .ok result) :
    view result (keyOf entry) = change (view state (keyOf entry)) entry := by
  induction entries generalizing state with
  | nil => cases member
  | cons first rest inductionHypothesis =>
      obtain ⟨firstFresh, restDistinct⟩ := List.nodup_cons.mp distinct
      rw [List.foldlM_cons, except_bind_eq_ok] at folded
      obtain ⟨next, stepped, restFolded⟩ := folded
      rcases List.mem_cons.mp member with rfl | later
      · -- the entry's own iteration; the later ones write elsewhere
        have untouched : ∀ other ∈ rest, keyOf other ≠ keyOf entry := by
          intro other otherMember same
          exact firstFresh (same ▸ List.mem_map_of_mem otherMember)
        rw [foldlM_pointwise_of_not_mem view keyOf others untouched restFolded]
        exact written state entry next stepped
      · have apart : keyOf entry ≠ keyOf first := by
          intro same
          exact firstFresh (same ▸ List.mem_map_of_mem later)
        rw [inductionHypothesis restDistinct later restFolded, others state first next _ stepped apart]

/-- A fallible loop over distinct keys succeeds when every iteration finds its key ready. -/
theorem foldlM_pointwise_ok {step : State → Entry → Except Error State}
    (ready : Entry → View → Prop)
    (succeeds : ∀ state entry, ready entry (view state (keyOf entry)) →
      ∃ next, step state entry = .ok next)
    (others : ∀ state entry next key, step state entry = .ok next → key ≠ keyOf entry →
      view next key = view state key)
    {entries : List Entry} (distinct : (entries.map keyOf).Nodup) {state : State}
    (allReady : ∀ entry ∈ entries, ready entry (view state (keyOf entry))) :
    ∃ result, entries.foldlM step state = .ok result := by
  induction entries generalizing state with
  | nil => exact ⟨state, rfl⟩
  | cons first rest inductionHypothesis =>
      obtain ⟨firstFresh, restDistinct⟩ := List.nodup_cons.mp distinct
      obtain ⟨next, stepped⟩ := succeeds state first (allReady first List.mem_cons_self)
      have stillReady : ∀ entry ∈ rest, ready entry (view next (keyOf entry)) := by
        intro entry member
        have apart : keyOf entry ≠ keyOf first := by
          intro same
          exact firstFresh (same ▸ List.mem_map_of_mem member)
        rw [others state first next _ stepped apart]
        exact allReady entry (List.mem_cons_of_mem _ member)
      obtain ⟨result, folded⟩ := inductionHypothesis restDistinct stillReady
      refine ⟨result, ?_⟩
      rw [List.foldlM_cons, stepped, except_bind_ok]
      exact folded

/-! A total loop is the fallible one whose iterations never fail. -/

variable {step : State → Entry → State}

theorem foldlM_ok_foldl (entries : List Entry) (state : State) :
    entries.foldlM (fun state entry => (.ok (step state entry) : Except Unit State)) state =
      .ok (entries.foldl step state) :=
  List.foldlM_pure

theorem foldl_pointwise_of_not_mem
    (others : ∀ state entry key, key ≠ keyOf entry → view (step state entry) key = view state key)
    {entries : List Entry} {key : Key} (absent : ∀ entry ∈ entries, keyOf entry ≠ key)
    (state : State) : view (entries.foldl step state) key = view state key := by
  have fallible : ∀ state entry next key, (.ok (step state entry) : Except Unit State) = .ok next →
      key ≠ keyOf entry → view next key = view state key := by
    rintro state entry next key ⟨⟩ apart
    exact others state entry key apart
  exact foldlM_pointwise_of_not_mem view keyOf fallible absent (foldlM_ok_foldl entries state)

theorem foldl_pointwise_of_mem (change : View → Entry → View)
    (written : ∀ state entry,
      view (step state entry) (keyOf entry) = change (view state (keyOf entry)) entry)
    (others : ∀ state entry key, key ≠ keyOf entry → view (step state entry) key = view state key)
    {entries : List Entry} (distinct : (entries.map keyOf).Nodup) {entry : Entry}
    (member : entry ∈ entries) (state : State) :
    view (entries.foldl step state) (keyOf entry) = change (view state (keyOf entry)) entry := by
  have fallibleWritten : ∀ state entry next, (.ok (step state entry) : Except Unit State) = .ok next →
      view next (keyOf entry) = change (view state (keyOf entry)) entry := by
    rintro state entry next ⟨⟩
    exact written state entry
  have fallibleOthers : ∀ state entry next key,
      (.ok (step state entry) : Except Unit State) = .ok next →
      key ≠ keyOf entry → view next key = view state key := by
    rintro state entry next key ⟨⟩ apart
    exact others state entry key apart
  exact foldlM_pointwise_of_mem view keyOf change fallibleWritten fallibleOthers distinct member
    (foldlM_ok_foldl entries state)

end Pointwise

/-! Loops over distinct keys, each step perhaps erasing its own key from a map. -/

section Erasing

variable {Key Value : Type} [DecidableEq Key] (view : State → AList fun _ : Key => Value)
  {step : State → Key → State} (chosen : Key → Prop) [DecidablePred chosen]

theorem lookup_foldl_of_erasing
    (erases : ∀ state key,
      view (step state key) = if chosen key then (view state).erase key else view state)
    {keys : List Key} (distinct : keys.Nodup) (state : State) (key : Key) :
    (view (keys.foldl step state)).lookup key =
      if chosen key ∧ key ∈ keys then none else (view state).lookup key := by
  have others : ∀ current key' key'', key'' ≠ id key' →
      (view (step current key')).lookup key'' = (view current).lookup key'' := by
    intro current key' key'' apart
    rw [erases]
    split
    · exact AList.lookup_erase_ne apart
    · rfl
  by_cases member : key ∈ keys
  · have written : ∀ current key', (view (step current key')).lookup (id key') =
        if chosen key' then none else (view current).lookup (id key') := by
      intro current key'
      rw [erases]
      by_cases yes : chosen key'
      · rw [if_pos yes, if_pos yes]
        exact AList.lookup_erase _ _
      · rw [if_neg yes, if_neg yes]
    refine (foldl_pointwise_of_mem (fun (current : State) (key : Key) => (view current).lookup key) id
      (fun found key' => if chosen key' then none else found) written others (by rwa [List.map_id])
      member state).trans ?_
    simp only [id, member, and_true]
  · refine (foldl_pointwise_of_not_mem (fun (current : State) (key : Key) => (view current).lookup key)
      id others (fun key' member' same => member (by rw [← same]; exact member')) state).trans ?_
    simp only [member, and_false, if_false]

end Erasing

end Folds

end Tangerine.Library
