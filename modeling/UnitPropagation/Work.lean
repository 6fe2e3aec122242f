import UnitPropagation.Fault

namespace UnitPropagation

/-! Work: changes of a value that may meet a fault.

A fault ends the work and keeps the changes made before it.  The equations below say what
the parts of a piece of work do to the value that they start from. -/

/-- Work on a value of type `σ` with a result of type `α`. -/
abbrev Work (σ : Type) : Type → Type := EStateM Fault σ

namespace Work

variable {σ α β : Type}

/-- Goes on only if a value with `size` entries has an entry `index`. -/
def requireIndex (size index : Nat) : Work σ Unit :=
  if index < size then pure () else throw (.outOfBounds size index)

theorem pure_apply (result : α) (start : σ) :
    (pure result : Work σ α) start = .ok result start := rfl

theorem throw_apply (fault : Fault) (start : σ) :
    (throw fault : Work σ α) start = .error fault start := rfl

theorem get_apply (start : σ) : (get : Work σ σ) start = .ok start start := rfl

theorem modify_apply (step : σ → σ) (start : σ) :
    (modify step : Work σ Unit) start = .ok () (step start) := rfl

theorem bind_apply (work : Work σ α) (next : α → Work σ β) (start : σ) :
    (work >>= next) start =
      match work start with
      | .ok result changed => next result changed
      | .error fault changed => .error fault changed := by
  simp only [bind, EStateM.bind]
  cases work start <;> rfl

theorem requireIndex_apply (size index : Nat) (start : σ) :
    (requireIndex size index : Work σ Unit) start =
      if index < size then .ok () start else .error (.outOfBounds size index) start := by
  simp only [requireIndex]
  split <;> rfl

end Work

end UnitPropagation
