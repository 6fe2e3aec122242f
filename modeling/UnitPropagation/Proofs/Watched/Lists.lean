import UnitPropagation.Proofs.Reachable

namespace UnitPropagation

/-! The lists of a watching solver agree with the slots of its clauses.

They do so after every operation, also after a propagation that broke off in the middle of a
list.  After one that succeeded, no clause that could still become false or forced is off the
lists or watches a literal with a value. -/

namespace WatchTable

/-- A clause is on no list, or its slots are at two positions and it is as often on the list of
each literal as slots are at that literal. -/
def Mirrors (table : WatchTable) (clauses : Database) : Prop :=
  ∀ id, (∀ l, table.filings l id = 0) ∨ Filed clauses table.filings id

/-- Each clause has a true literal, or it is on the lists and both its slots are at open
literals. -/
def Rests (table : WatchTable) (state : State) : Prop :=
  ∀ id clause, state.clauses.get? id = some clause →
    state.model.Satisfies clause.literals ∨
      (Filed state.clauses table.filings id ∧
        ∀ slot, ∃ l, clause.watcher? slot = some l ∧ state.model.truth l = .unknown)

end WatchTable

namespace Watched

variable {watched : Watched} {state : State}

theorem Guards.mirrors (guards : watched.Guards state) :
    watched.table.Mirrors state.clauses := by
  intro id
  rcases guards.consistent id with nowhere | ⟨_, filed⟩
  · exact .inl nowhere
  · exact .inr filed

theorem Guards.rests (guards : watched.Guards state) (rest : watched.AtRest state) :
    watched.table.Rests state := by
  intro id clause found
  exact (guards.alert rest.going).satisfies_or_open (fun _ => rest.not_pending)
    (rest.taken_of_get? found) found

end Watched

namespace Solver

/-- The solver keeps lists, and they agree with the slots. -/
def Mirrored (solver : Solver) : Prop :=
  ∃ table, solver.propagator.table? = some table ∧ table.Mirrors solver.state.clauses

/-- The solver keeps lists, and no clause needs a visit. -/
def Rested (solver : Solver) : Prop :=
  ∃ table, solver.propagator.table? = some table ∧ table.Rests solver.state

variable {solver : Solver}

theorem Sound.mirrored (sound : solver.Sound)
    (watches : solver.propagator.kind = .watchedLiterals) : solver.Mirrored := by
  obtain ⟨propagator, session⟩ := solver
  cases propagator with
  | fullScan => cases watches
  | watchedLiterals watched =>
      have guards : watched.Guards session.state := sound.guards
      exact ⟨watched.table, rfl, guards.mirrors⟩

theorem Sound.rested (sound : solver.Sound)
    (watches : solver.propagator.kind = .watchedLiterals)
    (rest : solver.propagator.AtRest solver.state) : solver.Rested := by
  obtain ⟨propagator, session⟩ := solver
  cases propagator with
  | fullScan => cases watches
  | watchedLiterals watched =>
      have guards : watched.Guards session.state := sound.guards
      exact ⟨watched.table, rfl, guards.rests rest⟩

/-- Whatever has been asked of a watching solver, its lists agree with the slots, and after one
more propagation they still do, with no clause in need of a visit if that succeeded. -/
theorem watch_lists_mirror_slots {count : Nat} {start last : Solver}
    (created : create .watchedLiterals count = .ok start) {steps : List (Step Unit)}
    (reached : reach perform start steps = last) :
    last.Mirrored ∧ ∃ success after, propagate last = .ok success after ∧ after.Mirrored ∧
      (success = true → after.Rested) := by
  have intact := intact_reach created steps
  rw [reached] at intact
  obtain ⟨success, after, done, performed⟩ := intact.propagate_ends
  have intactAfter := intact.perform performed
  refine ⟨intact.sound.mirrored intact.kind, success, after, done,
    intactAfter.sound.mirrored intactAfter.kind, ?_⟩
  intro succeeded
  exact intactAfter.sound.rested intactAfter.kind (performed.rest rfl succeeded)

/-- The first clause comes with both slots at its end and goes on one list twice.  It is found
false at the first of its two visits, with two more entries of that list to come. -/
def brokenOff : List (Step Unit) :=
  [.add ⟨[⟨0, true⟩, ⟨0, true⟩, ⟨1, true⟩], 2, 2⟩, .add ⟨[⟨0, true⟩, ⟨2, true⟩], 1, 1⟩,
    .propagate (), .assign ⟨1, false⟩, .assign ⟨0, false⟩, .propagate ()]

theorem broken_off_mirrored :
    (reach perform (fresh .watchedLiterals 3) brokenOff).Mirrored ∧
      (reach perform (fresh .watchedLiterals 3) brokenOff).propagator.table?.map
        (·.list ⟨0, true⟩) = some #[0, 0, 1] ∧
      ∃ after, propagate (reach perform (fresh .watchedLiterals 3) brokenOff) = .ok false after ∧
        after.Mirrored := by
  obtain ⟨mirrored, success, after, done, stillMirrored, _⟩ :=
    watch_lists_mirror_slots (create_eq .watchedLiterals (by decide : 3 ≤ maxVariables))
      (rfl : reach perform _ brokenOff = _)
  have lists : (reach perform (fresh .watchedLiterals 3) brokenOff).propagator.table?.map
      (·.list ⟨0, true⟩) = some #[0, 0, 1] := by decide +kernel
  have answer : propagate.answer? (reach perform (fresh .watchedLiterals 3) brokenOff) =
      some false := by decide +kernel
  rw [Work.answer?_eq_some_iff.mpr ⟨after, done⟩, Option.some.injEq] at answer
  rw [answer] at done
  exact ⟨mirrored, lists, after, done, stillMirrored⟩

end Solver

end UnitPropagation
