import Mathlib.Logic.Function.Basic
import Mathlib.Data.List.Basic

/-! Maps whose keys are lists, as the nodes of a prefix tree denote them. -/

namespace Tangerine.Library.KeyMap

variable {α β : Type}

/-- The map that holds nothing. -/
def empty : List α → Option β := fun _ => none

/-- The map that reads the first symbol of the key and looks the rest up in `ms a`. -/
def branch (ms : α → List α → Option β) : List α → Option β
  | [] => none
  | a :: key => ms a key

@[simp] theorem empty_apply (key : List α) : (empty key : Option β) = none := rfl

@[simp] theorem branch_nil (ms : α → List α → Option β) : branch ms [] = none := rfl

@[simp] theorem branch_cons (ms : α → List α → Option β) (a : α) (key : List α) :
    branch ms (a :: key) = ms a key := rfl

@[simp] theorem branch_empty : branch (fun _ => empty : α → List α → Option β) = empty := by
  funext key
  cases key <;> rfl

/-- A map whose keys start with two different symbols. -/
def Forks (m : List α → Option β) : Prop :=
  ∃ a b ka kb, a ≠ b ∧ m (a :: ka) ≠ none ∧ m (b :: kb) ≠ none

theorem forks_branch {ms : α → List α → Option β} {a b : α} (parted : a ≠ b) {ka kb : List α}
    (someA : ms a ka ≠ none) (someB : ms b kb ≠ none) : Forks (branch ms) :=
  ⟨a, b, ka, kb, parted, someA, someB⟩

variable [DecidableEq α]

/-- The map of one key. -/
def single (key : List α) (value : β) : List α → Option β := Function.update empty key (some value)

/-- The map `m` moved under the prefix `pre`. -/
def under : List α → (List α → Option β) → List α → Option β
  | [], m, key => m key
  | _ :: _, _, [] => none
  | a :: pre, m, b :: key => if a = b then under pre m key else none

@[simp] theorem under_nil (m : List α → Option β) : under [] m = m := rfl

theorem single_apply (key probe : List α) (value : β) :
    single key value probe = if probe = key then some value else none := by
  by_cases same : probe = key
  · subst same
    simp [single]
  · simp [single, same]

@[simp] theorem under_append_apply (pre key : List α) (m : List α → Option β) :
    under pre m (pre ++ key) = m key := by
  induction pre with
  | nil => rfl
  | cons a pre inductionHypothesis => simp [under, inductionHypothesis]

theorem under_apply_outside {pre key : List α} (m : List α → Option β)
    (outside : ¬ pre <+: key) : under pre m key = none := by
  induction pre generalizing key with
  | nil => exact absurd (List.nil_prefix) outside
  | cons a pre inductionHypothesis =>
    cases key with
    | nil => rfl
    | cons b key =>
      by_cases same : a = b
      · subst same
        simp only [under, if_pos]
        apply inductionHypothesis
        intro inside
        exact outside (List.prefix_cons_inj a |>.mpr inside)
      · simp [under, same]

theorem under_append (pre pre' : List α) (m : List α → Option β) :
    under (pre ++ pre') m = under pre (under pre' m) := by
  induction pre with
  | nil => rfl
  | cons a pre inductionHypothesis =>
    funext key
    cases key with
    | nil => rfl
    | cons b key => simp [under, inductionHypothesis]

@[simp] theorem under_empty (pre : List α) : under pre (empty : List α → Option β) = empty := by
  induction pre with
  | nil => rfl
  | cons a pre inductionHypothesis =>
    funext key
    cases key with
    | nil => rfl
    | cons b key => by_cases same : a = b <;> simp [under, same, inductionHypothesis]

/-- An edge of one symbol is a branch with that one map. -/
theorem under_cons (a : α) (pre : List α) (m : List α → Option β) :
    under (a :: pre) m = branch (Function.update (fun _ => empty) a (under pre m)) := by
  funext key
  cases key with
  | nil => rfl
  | cons b key =>
    by_cases same : a = b
    · subst same
      simp [under]
    · simp [under, same, Function.update_of_ne (Ne.symm same)]

/-- A branch whose maps hold nothing but below `a` is the edge `a` above that map. -/
theorem branch_eq_under_singleton {ms : α → List α → Option β} {a : α}
    (others : ∀ b, b ≠ a → ms b = empty) : branch ms = under [a] (ms a) := by
  rw [under_cons, under_nil]
  congr 1
  funext b
  by_cases same : b = a
  · subst same
    simp
  · rw [Function.update_of_ne same, others b same]

theorem update_under (pre key : List α) (m : List α → Option β) (value : Option β) :
    Function.update (under pre m) (pre ++ key) value = under pre (Function.update m key value) := by
  funext probe
  by_cases same : probe = pre ++ key
  · subst same
    simp
  · rw [Function.update_of_ne same]
    by_cases inside : pre <+: probe
    · obtain ⟨rest, rfl⟩ := inside
      have other : rest ≠ key := fun eq => same (by rw [eq])
      simp [Function.update_of_ne other]
    · rw [under_apply_outside _ inside, under_apply_outside _ inside]

/-- The map of one key, moved under a prefix, is the map of the longer key. -/
theorem under_single (pre key : List α) (value : β) :
    under pre (single key value) = single (pre ++ key) value := by
  rw [single, ← update_under, under_empty, single]

/-- Removing the one key of a map of one key leaves nothing. -/
@[simp] theorem update_single_none (key : List α) (value : β) :
    Function.update (single key value) key none = empty := by
  rw [single, Function.update_idem, Function.update_eq_self_iff]
  rfl

/-- Updating a key outside the edge to nothing leaves the edge's map as it is. -/
theorem update_under_outside {pre key : List α} (m : List α → Option β)
    (outside : ¬ pre <+: key) : Function.update (under pre m) key none = under pre m := by
  funext probe
  by_cases same : probe = key
  · subst same
    simp [under_apply_outside m outside]
  · rw [Function.update_of_ne same]

theorem update_branch (ms : α → List α → Option β) (a : α) (key : List α) (value : Option β) :
    Function.update (branch ms) (a :: key) value =
      branch (Function.update ms a (Function.update (ms a) key value)) := by
  funext probe
  cases probe with
  | nil => rfl
  | cons b probe =>
    by_cases same : b = a
    · subst same
      by_cases here : probe = key
      · subst here
        simp
      · have other : b :: probe ≠ b :: key := fun eq => here (List.cons.inj eq).2
        simp [Function.update_of_ne here, Function.update_of_ne other]
    · have other : b :: probe ≠ a :: key := fun eq => same (List.cons.inj eq).1
      simp [Function.update_of_ne other, Function.update_of_ne same]

/-- Two keys that part after a common prefix are a branch below an edge. -/
theorem update_under_split {pre old new : List α} {a b : α} (parted : a ≠ b)
    (m : List α → Option β) (value : β) :
    Function.update (under (pre ++ a :: old) m) (pre ++ b :: new) (some value) =
      under pre (branch (Function.update (Function.update (fun _ => empty) a (under old m))
        b (single new value))) := by
  rw [under_append, update_under, under_cons, update_branch]
  congr 2
  rw [Function.update_of_ne (Ne.symm parted)]
  rfl

/-- `update_under_split` at the first position `m` where the two keys differ. -/
theorem update_under_parted {pre key : List α} {m : Nat} (preLong : m < pre.length)
    (keyLong : m < key.length) (agree : pre.take m = key.take m) (parted : pre[m] ≠ key[m])
    (map : List α → Option β) (value : β) :
    Function.update (under pre map) key (some value) =
      under (key.take m) (branch (Function.update
        (Function.update (fun _ => empty) pre[m] (under (pre.drop (m + 1)) map))
        key[m] (single (key.drop (m + 1)) value))) := by
  have preSplit : pre = pre.take m ++ pre[m] :: pre.drop (m + 1) := by
    rw [← List.drop_eq_getElem_cons preLong, List.take_append_drop]
  have keySplit : key = key.take m ++ key[m] :: key.drop (m + 1) := by
    rw [← List.drop_eq_getElem_cons keyLong, List.take_append_drop]
  calc Function.update (under pre map) key (some value)
      = Function.update (under (pre.take m ++ pre[m] :: pre.drop (m + 1)) map)
          (key.take m ++ key[m] :: key.drop (m + 1)) (some value) := by
        rw [← preSplit, ← keySplit]
    _ = _ := by
        rw [agree]
        exact update_under_split parted map value

section Forks

theorem under_injective (pre : List α) {m m' : List α → Option β}
    (same : under pre m = under pre m') : m = m' := by
  funext key
  simpa using congrFun same (pre ++ key)

theorem prefix_of_under_ne_none {pre key : List α} {m : List α → Option β}
    (found : under pre m key ≠ none) : pre <+: key := by
  by_contra outside
  exact found (under_apply_outside m outside)

/-- No edge of a symbol or more forks: all its keys start with that symbol. -/
theorem not_forks_under_cons (c : α) (pre : List α) (m : List α → Option β) :
    ¬ Forks (under (c :: pre) m) := by
  rintro ⟨a, b, ka, kb, parted, someA, someB⟩
  have startA : c = a := by
    by_contra differ
    exact someA (by simp [under, differ])
  have startB : c = b := by
    by_contra differ
    exact someB (by simp [under, differ])
  exact parted (startA.symm.trans startB)

/-- An edge above a map that forks ends where the map's keys part. -/
theorem prefix_of_under_eq_under {pre pre' : List α} {m m' : List α → Option β}
    (forks : Forks m) (same : under pre m = under pre' m') : pre' <+: pre := by
  obtain ⟨a, b, ka, kb, parted, someA, someB⟩ := forks
  have inA : pre' <+: pre ++ a :: ka :=
    prefix_of_under_ne_none (m := m') (by rw [← same, under_append_apply]; exact someA)
  have inB : pre' <+: pre ++ b :: kb :=
    prefix_of_under_ne_none (m := m') (by rw [← same, under_append_apply]; exact someB)
  by_contra outside
  -- a longer `pre'` would read both `a` and `b` right after `pre`
  have longer : pre.length < pre'.length := by
    by_contra short
    exact outside (List.prefix_of_prefix_length_le inA (List.prefix_append pre _) (by omega))
  have atA := inA.getElem longer
  have atB := inB.getElem longer
  simp only [List.getElem_append_right (Nat.le_refl _), Nat.sub_self, List.getElem_cons_zero]
    at atA atB
  exact parted (atA.symm.trans atB)

/-- Two edges above maps that fork hold the same only if they are the same edge. -/
theorem eq_of_under_eq_under {pre pre' : List α} {m m' : List α → Option β}
    (forks : Forks m) (forks' : Forks m') (same : under pre m = under pre' m') : pre = pre' := by
  have shorter := prefix_of_under_eq_under forks same
  have longer := prefix_of_under_eq_under forks' same.symm
  exact longer.eq_of_length (Nat.le_antisymm longer.length_le shorter.length_le)

theorem single_injective {key key' : List α} {value value' : β}
    (same : single key value = single key' value') : key = key' ∧ value = value' := by
  have atKey := congrFun same key
  rw [single_apply, single_apply, if_pos rfl] at atKey
  by_cases keys : key = key'
  · rw [if_pos keys] at atKey
    exact ⟨keys, Option.some.inj atKey⟩
  · rw [if_neg keys] at atKey
    cases atKey

/-- The map of one key does not fork below an edge. -/
theorem single_ne_under {key pre : List α} {value : β} {m : List α → Option β} (forks : Forks m) :
    single key value ≠ under pre m := by
  obtain ⟨a, b, ka, kb, parted, someA, someB⟩ := forks
  intro same
  have atKey : ∀ probe, under pre m probe ≠ none → probe = key := by
    intro probe found
    by_contra other
    rw [← same, single_apply, if_neg other] at found
    exact found rfl
  have keyA := atKey (pre ++ a :: ka) (by rwa [under_append_apply])
  have keyB := atKey (pre ++ b :: kb) (by rwa [under_append_apply])
  have := List.append_cancel_left (keyA.trans keyB.symm)
  exact parted (List.cons.inj this).1

end Forks

end Tangerine.Library.KeyMap
