import Mathlib

/-! Computations that thread a state and may fail, keeping the state they reached. -/

namespace Tangerine.Library.StateExcept

variable {ε σ α β : Type}

/-- The outcome of running `x` from `s`, and the state it leaves. -/
def run (x : ExceptT ε (StateM σ) α) (s : σ) : Except ε α × σ := x.run.run s

@[simp] theorem run_pure (a : α) (s : σ) :
    run (pure a : ExceptT ε (StateM σ) α) s = (.ok a, s) := rfl

@[simp] theorem run_throw (e : ε) (s : σ) :
    run (throw e : ExceptT ε (StateM σ) α) s = (.error e, s) := rfl

@[simp] theorem run_get (s : σ) : run (get : ExceptT ε (StateM σ) σ) s = (.ok s, s) := rfl

@[simp] theorem run_set (s s' : σ) :
    run (set s' : ExceptT ε (StateM σ) PUnit) s = (.ok ⟨⟩, s') := rfl

@[simp] theorem run_modify (f : σ → σ) (s : σ) :
    run (modify f : ExceptT ε (StateM σ) PUnit) s = (.ok ⟨⟩, f s) := rfl

/-- A bound computation runs its first half, and then the rest unless the first failed. -/
theorem run_bind (x : ExceptT ε (StateM σ) α) (f : α → ExceptT ε (StateM σ) β) (s : σ) :
    run (x >>= f) s =
      match run x s with
      | (.ok a, s') => run (f a) s'
      | (.error e, s') => (.error e, s') := by
  unfold run
  rw [ExceptT.run_bind, StateT.run_bind]
  generalize x.run.run s = result
  rcases result with ⟨_ | _, _⟩ <;> rfl

theorem run_bind_ok {x : ExceptT ε (StateM σ) α} {s s' : σ} {a : α}
    (ran : run x s = (.ok a, s')) (f : α → ExceptT ε (StateM σ) β) :
    run (x >>= f) s = run (f a) s' := by
  rw [run_bind, ran]

theorem run_map (f : α → β) (x : ExceptT ε (StateM σ) α) (s : σ) :
    run (f <$> x) s =
      match run x s with
      | (.ok a, s') => (.ok (f a), s')
      | (.error e, s') => (.error e, s') := by
  unfold run
  rw [ExceptT.run_map, StateT.run_map]
  generalize x.run.run s = result
  rcases result with ⟨_ | _, _⟩ <;> rfl

/-- A handled computation runs the handler from where a failure stopped. -/
theorem run_tryCatch (x : ExceptT ε (StateM σ) α) (handler : ε → ExceptT ε (StateM σ) α)
    (s : σ) :
    run (tryCatch x handler) s =
      match run x s with
      | (.ok a, s') => (.ok a, s')
      | (.error e, s') => run (handler e) s' := by
  unfold run
  show (ExceptT.tryCatch x handler).run.run s = _
  rw [ExceptT.tryCatch, ExceptT.run_mk, StateT.run_bind]
  -- the handled run and the plain one start alike
  change (StateT.run x s >>= _) =
    match StateT.run x s with
    | (.ok a, s') => (Except.ok a, s')
    | (.error e, s') => _
  generalize StateT.run x s = result
  rcases result with ⟨_ | _, _⟩ <;> rfl

end Tangerine.Library.StateExcept
