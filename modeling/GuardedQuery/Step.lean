/-!
# Steps

A step works on a state and may fail. The state that it leaves counts in either case, since what was
noted before a failure stays noted.

## Main definitions

* `Step`: a step, with its sequencing.
* `Step.ofExcept`, `Step.modify`: steps that only have an outcome, and steps that only change the state.
-/

namespace GuardedQuery

/-- A step on states `σ` with errors `ε` and results `α`. -/
def Step (σ ε α : Type) : Type := σ → Except ε α × σ

namespace Step

variable {σ ε α β : Type}

instance : Monad (Step σ ε) where
  pure a := fun s => (.ok a, s)
  bind r f := fun s =>
    match r s with
    | (.ok a, s) => f a s
    | (.error e, s) => (.error e, s)

/-- The step with a given outcome. -/
def ofExcept (outcome : Except ε α) : Step σ ε α := fun s => (outcome, s)

/-- The step that fails. -/
def fail (e : ε) : Step σ ε α := ofExcept (.error e)

/-- The step to a value that must be there. -/
def require (e : ε) : Option α → Step σ ε α
  | some a => ofExcept (.ok a)
  | none => fail e

/-- The step that changes the state. -/
def modify (f : σ → σ) : Step σ ε Unit := fun s => (.ok (), f s)

@[simp] theorem pure_apply (a : α) (s : σ) : (pure a : Step σ ε α) s = (.ok a, s) := rfl

@[simp] theorem ofExcept_apply (outcome : Except ε α) (s : σ) :
    (ofExcept outcome : Step σ ε α) s = (outcome, s) := rfl

@[simp] theorem modify_apply (f : σ → σ) (s : σ) : (modify f : Step σ ε Unit) s = (.ok (), f s) := rfl

theorem bind_apply (r : Step σ ε α) (f : α → Step σ ε β) (s : σ) :
    (r >>= f) s = match r s with
      | (.ok a, s) => f a s
      | (.error e, s) => (.error e, s) := rfl

end Step

end GuardedQuery
