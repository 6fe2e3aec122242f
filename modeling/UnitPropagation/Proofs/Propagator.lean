import UnitPropagation.Proofs.FullScan
import UnitPropagation.Proofs.Watched.Propagation
import UnitPropagation.Solver

namespace UnitPropagation

/-! What a run of a propagator of either kind does. -/

variable {state after : State} {propagator : Propagator}

namespace Propagator

/-- Whatever the propagator will ask for is there. -/
def Fits : Propagator → State → Prop
  | .fullScan, _ => True
  | .watchedLiterals watched, state => watched.Fits state

/-- What the propagator remembers is enough for its answers to be right. -/
def Guards : Propagator → State → Prop
  | .fullScan, _ => True
  | .watchedLiterals watched, state => watched.Guards state

/-- Nothing is waiting for the propagator; one that scans never keeps anything waiting. -/
def AtRest : Propagator → State → Prop
  | .fullScan, _ => True
  | .watchedLiterals watched, state => watched.AtRest state

/-- Number of clauses that the propagator has taken in; one that scans takes in none. -/
def taken : Propagator → Nat
  | .fullScan => 0
  | .watchedLiterals watched => watched.indexed

theorem fits_create (kind : PropagatorKind) {count : Nat}
    (enough : kind = .watchedLiterals → state.numVars ≤ count) :
    (create kind count).Fits state := by
  cases kind with
  | fullScan => trivial
  | watchedLiterals => exact Watched.fits_forVariables (enough rfl)

theorem guards_create (kind : PropagatorKind) (count : Nat) :
    (create kind count).Guards state := by
  cases kind with
  | fullScan => trivial
  | watchedLiterals => exact Watched.guards_forVariables count

theorem guards_of_kind (scans : propagator.kind = .fullScan) : propagator.Guards state := by
  cases propagator with
  | fullScan => trivial
  | watchedLiterals watched => cases scans

theorem Fits.advance (fits : propagator.Fits state) (run : state.Advances after)
    (valid : state.WellFormed) : propagator.Fits after := by
  cases propagator with
  | fullScan => trivial
  | watchedLiterals watched => exact Watched.Fits.advance fits run valid

theorem Fits.grow (fits : propagator.Fits state) (grows : state.Grows after) :
    propagator.Fits after := by
  cases propagator with
  | fullScan => trivial
  | watchedLiterals watched => exact Watched.Fits.grow fits grows

theorem Guards.keep (guards : propagator.Guards state) (fits : propagator.Fits state)
    (extension : after.model.Extends state.model)
    (longer : state.trail.toList <+: after.trail.toList)
    (kept : ∀ id < propagator.taken, after.clauses.get? id = state.clauses.get? id)
    (valid : state.WellFormed) (laterValid : after.WellFormed) : propagator.Guards after := by
  cases propagator with
  | fullScan => trivial
  | watchedLiterals watched =>
      exact Watched.Guards.keep guards fits extension longer kept valid laterValid

theorem Guards.grow (guards : propagator.Guards state) (fits : propagator.Fits state)
    (grows : state.Grows after) (valid : state.WellFormed) (laterValid : after.WellFormed) :
    propagator.Guards after := by
  cases propagator with
  | fullScan => trivial
  | watchedLiterals watched => exact Watched.Guards.grow guards fits grows valid laterValid

end Propagator

namespace Solver

variable {solver : Solver}

/-- How a run of the propagator of a solver ends. -/
structure Propagated (before : Solver) (success : Bool) (after : Solver) : Prop where
  run : before.state.Advances after.state
  fits : after.propagator.Fits after.state
  failed : success = false → after.state.Conflicted
  guards : before.propagator.Guards before.state → after.propagator.Guards after.state
  settled : before.propagator.Guards before.state → success = true → after.state.Settled
  rest : success = true → after.propagator.AtRest after.state
  /-- Only watching moves slots. -/
  scanned : before.propagator.kind = .fullScan → before.state.Grows after.state
  kind : after.propagator.kind = before.propagator.kind

theorem runPropagator_scans {session last : Session} {success : Bool}
    (done : FullScan.propagate session = .ok success last) :
    runPropagator ⟨.fullScan, session⟩ = .ok success ⟨.fullScan, last⟩ := by
  simp only [runPropagator, onSession, done]

theorem runPropagator_watches {watched : Watched} {session : Session} {last : Watching}
    {success : Bool} (done : Watching.propagate ⟨watched, session⟩ = .ok success last) :
    runPropagator ⟨.watchedLiterals watched, session⟩ =
      .ok success ⟨.watchedLiterals last.watched, last.session⟩ := by
  simp only [runPropagator, done]

theorem runPropagator_ends (solver : Solver) (valid : solver.state.WellFormed)
    (fits : solver.propagator.Fits solver.state) :
    runPropagator.Ends solver (Propagated solver) := by
  obtain ⟨propagator, session⟩ := solver
  cases propagator with
  | fullScan =>
      obtain ⟨success, last, done, run, settled, failed⟩ := FullScan.propagate_ends session valid
      exact Work.ends_of_eq (runPropagator_scans done) ⟨run.advances, trivial, failed,
        fun _ => trivial, fun _ => settled, fun _ => trivial, fun _ => run.grows valid, rfl⟩
  | watchedLiterals watched =>
      obtain ⟨success, last, done, course, failed, rest⟩ :=
        Watching.propagate_ends ⟨watched, session⟩ valid fits
      exact Work.ends_of_eq (runPropagator_watches done) ⟨course.run, course.fits, failed,
        course.guards, fun guards succeeded => (course.guards guards).settled (rest succeeded),
        rest, by simp [Propagator.kind], rfl⟩

theorem propagate_ends (solver : Solver) (valid : solver.state.WellFormed)
    (fits : solver.propagator.Fits solver.state) :
    propagate.Ends solver (Propagated solver) := by
  rw [propagate]
  refine (runPropagator_ends solver valid fits).bind ?_
  intro success after propagated
  rw [Work.ends_get_bind]
  -- The note that follows changes the journal only.
  exact Work.ends_of_eq rfl ⟨propagated.run, propagated.fits, propagated.failed,
    propagated.guards, propagated.settled, propagated.rest, propagated.scanned, propagated.kind⟩

end Solver

end UnitPropagation
