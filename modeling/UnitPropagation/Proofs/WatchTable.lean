import UnitPropagation.Proofs.Assignment
import UnitPropagation.Proofs.Work
import UnitPropagation.WatchTable

namespace UnitPropagation.WatchTable

/-! How often a clause is filed under a literal, and what the table's operations do to that. -/

variable {table : WatchTable} {l other : Literal} {id : Nat} {ids : Array Nat}

/-- How often clause `id` is filed under `l`. -/
def filings (table : WatchTable) (l : Literal) (id : Nat) : Nat := (table.list l).toList.count id

@[simp] theorem size_put (table : WatchTable) (l : Literal) (ids : Array Nat) :
    (table.put l ids).size = table.size := by
  simp [put, size]

@[simp] theorem size_push (table : WatchTable) (l : Literal) (id : Nat) :
    (table.push l id).size = table.size := by
  simp [push, size]

theorem size_forVariables (count : Nat) : (forVariables count).size = 2 * count := by
  simp [forVariables, size]

theorem filings_forVariables (count : Nat) (l : Literal) (id : Nat) :
    (forVariables count).filings l id = 0 := by
  have empty : (forVariables count).list l = #[] := by
    simp only [forVariables, list, Array.getD_eq_getD_getElem?, Array.getElem?_replicate]
    split <;> rfl
  simp [filings, empty]

theorem list_put (bound : l.code < table.size) :
    (table.put l ids).list other = if other = l then ids else table.list other := by
  have inside : l.code < table.lists.size := bound
  simp only [put, list, Array.getD_eq_getD_getElem?, Array.getElem?_setIfInBounds, inside,
    ↓reduceIte]
  by_cases same : other = l
  · simp [same]
  · have apart : l.code ≠ other.code := fun equal => same (Literal.code_inj.mp equal.symm)
    simp [same, apart]

theorem list_push (bound : l.code < table.size) :
    (table.push l id).list other =
      if other = l then (table.list other).push id else table.list other := by
  have inside : l.code < table.lists.size := bound
  simp only [push, list, Array.getD_eq_getD_getElem?, Array.getElem?_modify]
  by_cases same : other = l
  · subst other
    simp [inside]
  · have apart : l.code ≠ other.code := fun equal => same (Literal.code_inj.mp equal.symm)
    simp [same, apart]

theorem filings_put (bound : l.code < table.size) (id : Nat) :
    (table.put l ids).filings other id =
      if other = l then ids.toList.count id else table.filings other id := by
  rw [filings, list_put bound]
  split <;> rfl

theorem filings_push (bound : l.code < table.size) (filed : Nat) :
    (table.push l id).filings other filed =
      table.filings other filed + if other = l ∧ id = filed then 1 else 0 := by
  rw [filings, list_push bound]
  by_cases same : other = l
  · simp [same, filings, List.count_append, List.count_singleton, beq_iff_eq]
  · simp [same, filings]

theorem watch_apply (bound : l.code < table.size) (id : Nat) :
    watch l id table = .ok () (table.push l id) := by
  simp only [watch, requireList, Work.bind_apply, Work.get_apply, Work.requireIndex_apply, bound,
    ↓reduceIte, Work.modify_apply]

theorem take_apply (bound : l.code < table.size) :
    take l table = .ok (table.list l) (table.put l #[]) := by
  simp only [take, requireList, Work.bind_apply, Work.get_apply, Work.requireIndex_apply, bound,
    ↓reduceIte, Work.modify_apply, Work.pure_apply]

theorem replace_apply (bound : l.code < table.size) (ids : Array Nat) :
    replace l ids table = .ok () (table.put l ids) := by
  simp only [replace, requireList, Work.bind_apply, Work.get_apply, Work.requireIndex_apply, bound,
    ↓reduceIte, Work.modify_apply]

end UnitPropagation.WatchTable
