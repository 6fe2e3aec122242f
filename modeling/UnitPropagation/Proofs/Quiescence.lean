import UnitPropagation.Proofs.Propagator

namespace UnitPropagation

/-! Runs that find nothing to do.

Clauses are looked at, and afterwards only counters are different.  So it is in a settled state,
and so it is when the clauses still to be taken in are those that propagation has added itself:
each is a single literal that holds. -/

namespace State

variable {before after : State}

/-- Nothing was done but count visits. -/
def OnlyVisits (before after : State) : Prop :=
  ∃ visits, after = { before with counters.visits := visits }

theorem OnlyVisits.refl (state : State) : state.OnlyVisits state := ⟨_, rfl⟩

theorem OnlyVisits.clauses (visits : before.OnlyVisits after) : after.clauses = before.clauses := by
  obtain ⟨_, rfl⟩ := visits
  rfl

theorem OnlyVisits.passes (visits : before.OnlyVisits after) :
    after.counters.passes = before.counters.passes := by
  obtain ⟨_, rfl⟩ := visits
  rfl

theorem OnlyVisits.trail (visits : before.OnlyVisits after) : after.trail = before.trail := by
  obtain ⟨_, rfl⟩ := visits
  rfl

end State

theorem Assignment.Settles.not_forces {model : Assignment} {literals : List Literal} {l : Literal}
    (settled : model.Settles literals) : ¬ model.Forces literals l := by
  intro forced
  obtain ⟨before, after, rfl, unknown, others⟩ := forced
  rw [Assignment.holds_of_settles settled others] at unknown
  cases unknown

namespace FullScan

variable {ids : List Nat}

theorem scan_of_settled (session : Session) (valid : session.state.WellFormed)
    (settled : session.state.Settled) (known : ∀ id ∈ ids, id < session.state.clauses.size) :
    (scan ids .quiet).Ends session fun result after =>
      result = .quiet ∧ session.state.OnlyVisits after.state := by
  induction ids generalizing session with
  | nil => exact Work.ends_of_eq rfl ⟨rfl, .refl _⟩
  | cons id rest ih =>
      obtain ⟨clause, found⟩ := Database.get?_of_lt (known id (by simp))
      have counted := (Deduction.visit session.state).wellFormed valid
      have others := ih ⟨session.state.countVisit, session.journal⟩ counted settled
        fun other member => known other (by simp [member])
      have settles : session.state.model.Settles clause.literals :=
        settled clause.literals (List.mem_map_of_mem (Database.mem_toList_iff.mpr ⟨id, found⟩))
      have described := clause.status_describes session.state.model
      rw [scan, Work.ends_bind_of_eq (Session.visitClause_apply session valid found),
        Work.ends_get_bind]
      have same : session.state.countVisit.model = session.state.model := rfl
      rw [same]
      cases evaluated : clause.status session.state.model with
      -- One visit more makes no difference to `OnlyVisits`.
      | satisfied | undecided => exact others
      | conflicting =>
          rw [evaluated] at described
          exact absurd described settles.1
      | unit l =>
          rw [evaluated] at described
          exact absurd described settles.not_forces

theorem propagate_of_settled (session : Session) (valid : session.state.WellFormed)
    (settled : session.state.Settled) :
    propagate.Ends session fun success after =>
      success = true ∧ session.state.countPass.OnlyVisits after.state := by
  have counted := (Deduction.pass session.state).wellFormed valid
  rw [propagate, Work.ends_get_bind, scanRounds, Work.ends_bind_of_eq (Session.change_apply _ _),
    Work.ends_get_bind]
  refine (scan_of_settled ⟨session.state.countPass, session.journal⟩ counted settled
    fun _ => Database.lt_of_mem_idsFrom).bind ?_
  intro result after reached
  obtain ⟨rfl, visits⟩ := reached
  exact Work.ends_of_eq rfl ⟨rfl, visits⟩

end FullScan

namespace Watching

variable {steps left id : Nat} {clause : Clause} {l : Literal}

theorem indexClause_of_unit (start : Watching) (valid : start.session.state.WellFormed)
    (known : start.session.state.clauses.get? id = some clause) (single : clause.literals = [l])
    (holds : start.session.state.model.truth l = .holds) :
    indexClause id start =
      .ok true ⟨start.watched, ⟨start.session.state.countVisit, start.session.journal⟩⟩ := by
  have idle : clause.intake start.session.state.countVisit.model = .idle := by
    have same : start.session.state.countVisit.model = start.session.state.model := rfl
    rw [Clause.intake, single, Assignment.intakeFrom_cons, same, holds]
  rw [indexClause, Work.bind_apply,
    onSession_of_eq (Session.visitClause_apply start.session valid known)]
  dsimp only
  rw [Work.bind_apply, Work.get_apply]
  dsimp only
  rw [idle]
  rfl

theorem indexClauses_of_units (start : Watching) (valid : start.session.state.WellFormed)
    (within : start.watched.indexed ≤ start.session.state.clauses.size)
    (made : start.session.state.TrueUnitsFrom start.watched.indexed)
    (enough : start.session.state.clauses.size - start.watched.indexed < steps) :
    (indexClauses steps).Ends start fun success after =>
      success = true ∧
        after.watched = { start.watched with indexed := start.session.state.clauses.size } ∧
        start.session.state.OnlyVisits after.session.state := by
  induction steps generalizing start with
  | zero => omega
  | succ steps ih =>
      obtain ⟨⟨table, indexed, head, conflict⟩, ⟨state, journal⟩⟩ := start
      dsimp only at valid within made enough ⊢
      rw [indexClauses, Work.ends_get_bind, Work.ends_get_bind]
      by_cases more : indexed < state.clauses.size
      · obtain ⟨clause, found⟩ := Database.get?_of_lt more
        obtain ⟨l, single, holds⟩ := made indexed clause (Nat.le_refl _) found
        have counted := (Deduction.visit state).wellFormed valid
        have later : state.countVisit.TrueUnitsFrom (indexed + 1) :=
          fun id clause beyond => made id clause (by omega)
        rw [if_pos more, Work.ends_modify_bind]
        refine (Work.ends_bind_of_eq (indexClause_of_unit
          ⟨⟨table, indexed + 1, head, conflict⟩, ⟨state, journal⟩⟩ valid found single holds)).mpr ?_
        exact ih ⟨⟨table, indexed + 1, head, conflict⟩, ⟨state.countVisit, journal⟩⟩ counted more
          later (by change state.clauses.size - (indexed + 1) < steps; omega)
      · have all : indexed = state.clauses.size := by omega
        rw [if_neg more]
        exact Work.ends_of_eq rfl ⟨rfl, by rw [all], .refl _⟩

/-- With the trail visited and nothing but true units to take in, the round is the last. -/
theorem rounds_of_units (start : Watching) (valid : start.session.state.WellFormed)
    (within : start.watched.indexed ≤ start.session.state.clauses.size)
    (made : start.session.state.TrueUnitsFrom start.watched.indexed)
    (visited : start.watched.head = start.session.state.trail.size) :
    (rounds (left + 1)).Ends start fun success after =>
      success = true ∧
        after.watched = { start.watched with indexed := start.session.state.clauses.size } ∧
        start.session.state.countPass.OnlyVisits after.session.state := by
  have counted := (Deduction.pass start.session.state).wellFormed valid
  rw [rounds]
  refine ends_onSession (Session.change_apply _ _) ?_
  rw [Work.ends_get_bind, Work.ends_get_bind]
  refine (indexClauses_of_units ⟨start.watched, ⟨start.session.state.countPass, _⟩⟩ counted
    within made (by dsimp only; omega)).bind ?_
  intro taken indexed reached
  obtain ⟨rfl, watched, visits⟩ := reached
  have clauses : indexed.session.state.clauses = start.session.state.clauses := visits.clauses
  have trail : indexed.session.state.trail = start.session.state.trail := visits.trail
  have none : indexed.session.state.trail[indexed.watched.head]? = none := by
    rw [trail, watched, Array.getElem?_eq_none_iff]
    exact Nat.le_of_eq visited.symm
  have passed : ∀ further, visitTrail (further + 1) indexed = .ok true indexed := by
    intro further
    rw [visitTrail, Work.get_bind_apply, Work.get_bind_apply, none]
    rfl
  simp only [↓reduceIte]
  rw [Work.ends_get_bind, Work.ends_get_bind, Work.ends_bind_of_eq (passed _)]
  simp only [↓reduceIte]
  have complete : indexed.watched.indexed = indexed.session.state.clauses.size :=
    (congrArg Watched.indexed watched).trans (congrArg Database.size clauses.symm)
  rw [Work.ends_get_bind, Work.ends_get_bind, if_pos complete]
  refine ends_onSession (Session.note_apply _ _) ?_
  exact Work.ends_of_eq rfl ⟨rfl, watched, visits⟩

theorem propagate_of_rest (start : Watching) (valid : start.session.state.WellFormed)
    (rest : start.watched.AtRest start.session.state) :
    propagate.Ends start fun success after =>
      success = true ∧ after.watched = start.watched ∧
        start.session.state.countPass.OnlyVisits after.session.state := by
  obtain ⟨going, taken, visited⟩ := rest
  have made : start.session.state.TrueUnitsFrom start.watched.indexed := by
    rw [taken]
    exact start.session.state.trueUnitsFrom_size
  rw [propagate, Work.ends_get_bind, going]
  dsimp only
  rw [Work.ends_get_bind]
  refine (rounds_of_units start valid (Nat.le_of_eq taken) made visited).mono ?_
  intro success after reached
  rw [← taken] at reached
  exact reached

end Watching

namespace Solver

variable {before after : Solver}

/-- A run would find nothing to do. -/
structure Idle (solver : Solver) : Prop where
  rest : solver.propagator.AtRest solver.state
  settled : solver.propagator.kind = .fullScan → solver.state.Settled

theorem Propagated.idle (propagated : Propagated before true after) : after.Idle where
  rest := propagated.rest rfl
  settled := by
    intro scans
    rw [propagated.kind] at scans
    exact propagated.settled (Propagator.guards_of_kind scans) rfl

theorem runPropagator_of_idle (solver : Solver) (valid : solver.state.WellFormed)
    (idle : solver.Idle) :
    runPropagator.Ends solver fun success after =>
      success = true ∧ after.propagator = solver.propagator ∧
        solver.state.countPass.OnlyVisits after.state := by
  obtain ⟨propagator, session⟩ := solver
  cases propagator with
  | fullScan =>
      obtain ⟨success, last, done, reached⟩ :=
        FullScan.propagate_of_settled session valid (idle.settled rfl)
      exact Work.ends_of_eq (runPropagator_scans done) ⟨reached.1, rfl, reached.2⟩
  | watchedLiterals watched =>
      obtain ⟨success, last, done, succeeded, same, visits⟩ :=
        Watching.propagate_of_rest ⟨watched, session⟩ valid idle.rest
      exact Work.ends_of_eq (runPropagator_watches done)
        ⟨succeeded, congrArg Propagator.watchedLiterals same, visits⟩

end Solver

end UnitPropagation
