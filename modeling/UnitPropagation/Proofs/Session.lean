import UnitPropagation.Proofs.State
import UnitPropagation.Proofs.Work
import UnitPropagation.Session

namespace UnitPropagation

/-! What the parts of a propagator do to a session when the state is well-formed. -/

variable {id : Nat} {clause : Clause} {l : Literal}

namespace State

variable {state : State}

theorem requireVariables_ok (literals : List Literal)
    (inside : ∀ l ∈ literals, l.var < state.numVars) :
    (literals.forM fun l => state.model.requireVariable l.var) = .ok () := by
  induction literals with
  | nil => rfl
  | cons l rest ih =>
      have bound : l.var < state.model.size := inside l (by simp)
      have first : state.model.requireVariable l.var = .ok () := by
        rw [Assignment.requireVariable, if_pos bound]
      change (state.model.requireVariable l.var >>= fun _ =>
        rest.forM fun l => state.model.requireVariable l.var) = .ok ()
      rw [first]
      exact ih fun other member => inside other (by simp [member])

theorem forM_requireVariables_ok (clauses : List Clause)
    (inside : ∀ clause ∈ clauses, ∀ l ∈ clause.literals, l.var < state.numVars) :
    clauses.forM state.requireVariables = .ok () := by
  induction clauses with
  | nil => rfl
  | cons clause rest ih =>
      have first : state.requireVariables clause = .ok () :=
        requireVariables_ok clause.literals (inside clause (by simp))
      change (state.requireVariables clause >>= fun _ => rest.forM state.requireVariables) = .ok ()
      rw [first]
      exact ih fun other member => inside other (by simp [member])

theorem clauseAt_ok (valid : state.WellFormed) (found : state.clauses.get? id = some clause) :
    state.clauseAt id = .ok clause := by
  have checked : state.requireVariables clause = .ok () :=
    requireVariables_ok clause.literals fun _ => valid.var_lt found
  simp only [clauseAt, Database.clauseAt, found]
  change (state.requireVariables clause >>= fun _ => pure clause) = .ok clause
  rw [checked]
  rfl

theorem truth_ok (inside : l.var < state.numVars) : state.truth l = .ok (state.model.truth l) := by
  have bound : l.var < state.model.size := inside
  simp only [truth, Assignment.truthAt, Assignment.requireVariable, bound, ↓reduceIte]
  rfl

theorem value_ok {x : Nat} (inside : x < state.numVars) :
    state.value x = .ok (state.model.value x) := by
  have bound : x < state.model.size := inside
  simp only [value, Assignment.valueAt, Assignment.requireVariable, bound, ↓reduceIte]
  rfl

end State

namespace Session

theorem create_eq {count : Nat} (bound : count ≤ maxVariables) :
    create count = .ok (.ofState (.ofModel (.blank count))) := by
  simp only [create, State.create, Assignment.create, bound, ↓reduceIte]
  rfl

theorem eq_of_create {count : Nat} {start : Session} (created : create count = .ok start) :
    start = .ofState (.ofModel (.blank count)) := by
  by_cases bound : count ≤ maxVariables
  · rw [create_eq bound] at created
    exact (Except.ok.inj created).symm
  · simp [create, State.create, Assignment.create, bound, Except.map] at created

theorem visitClause_apply (session : Session) (valid : session.state.WellFormed)
    (found : session.state.clauses.get? id = some clause) :
    visitClause id session = .ok clause ⟨session.state.countVisit, session.journal⟩ := by
  have counted := (Deduction.visit session.state).wellFormed valid
  have fetched : session.state.countVisit.clauseAt id = .ok clause :=
    State.clauseAt_ok counted found
  simp only [visitClause, Work.bind_apply, change_apply, query_apply, fetched]

theorem reportConflict_apply (id : Nat) (clause : Clause) (session : Session) :
    reportConflict id clause session =
      .ok () ⟨session.state.countConflict, session.journal.push (.conflict id clause)⟩ := rfl

theorem force_apply (session : Session) (inside : l.var < session.state.numVars)
    (unassigned : session.state.model.truth l = .unknown) :
    force l id clause session =
      .ok true ⟨(session.state.extend l).countPropagation,
        (session.journal.push (.assigned l)).push (.forced id l)⟩ := by
  simp only [force, imply, Work.bind_apply, assign_apply, State.truth_ok inside, unassigned,
    change_apply, note_apply, ↓reduceIte]
  rfl

theorem rebase_ends (session : Session) (valid : session.state.WellFormed) :
    rebase.Ends session fun clauses _ => clauses = session.state.rebased := by
  have checked : session.state.clauses.toList.forM session.state.requireVariables = .ok () := by
    apply State.forM_requireVariables_ok
    intro clause member
    exact valid.inside clause.literals (List.mem_map_of_mem member)
  have asked : query (fun state => state.clauses.toList.forM state.requireVariables) session =
      .ok () session := by
    rw [query_apply, checked]
  rw [rebase, Work.ends_bind_of_eq asked, Work.ends_get_bind]
  exact Work.ends_of_eq rfl rfl

end Session

end UnitPropagation
