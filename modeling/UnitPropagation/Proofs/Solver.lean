import UnitPropagation.Proofs.History
import UnitPropagation.Proofs.Propagator

namespace UnitPropagation.Solver

/-! Runs of a solver, whichever propagator it has. -/

variable {solver before after : Solver} {step : Step Unit} {answer : Bool}

def perform : Step Unit → Work Solver Bool
  | .add clause => add clause
  | .assign l => assign l
  | .propagate () => propagate

/-- The propagator has what it will ask for, and its answers will be right. -/
structure Sound (solver : Solver) : Prop where
  valid : solver.state.WellFormed
  fits : solver.propagator.Fits solver.state
  guards : solver.propagator.Guards solver.state

theorem Sound.of_same (sound : solver.Sound) (propagator : after.propagator = solver.propagator)
    (state : after.state = solver.state) : after.Sound := by
  obtain ⟨valid, fits, guards⟩ := sound
  rw [← state] at valid fits guards
  rw [← propagator] at fits guards
  exact ⟨valid, fits, guards⟩

/-- What an operation does to a solver. -/
structure Performed (before : Solver) (step : Step Unit) (answer : Bool) (after : Solver) :
    Prop where
  effect : step.Effect before.state answer after.state
  sound : after.Sound
  settled : step.propagator?.isSome → answer = true → after.state.Settled
  rest : step.propagator?.isSome → answer = true → after.propagator.AtRest after.state
  kind : after.propagator.kind = before.propagator.kind

/-- Nothing has been done yet. -/
def fresh (kind : PropagatorKind) (count : Nat) : Solver :=
  ⟨.create kind count, .ofState (.ofModel (.blank count))⟩

theorem create_eq (kind : PropagatorKind) {count : Nat} (bound : count ≤ maxVariables) :
    create kind count = .ok (fresh kind count) := by
  rw [create, Session.create_eq bound]
  rfl

theorem eq_of_create {kind : PropagatorKind} {count : Nat}
    (created : create kind count = .ok solver) : solver = fresh kind count := by
  cases made : Session.create count with
  | error fault => simp [create, made, Except.map] at created
  | ok session =>
      rw [create, made, Session.eq_of_create made] at created
      exact (Except.ok.inj created).symm

@[simp] theorem numVars_fresh (kind : PropagatorKind) (count : Nat) :
    (fresh kind count).state.numVars = count := State.numVars_ofModel count

theorem sound_fresh (kind : PropagatorKind) (count : Nat) : (fresh kind count).Sound :=
  ⟨(State.ledger_ofModel count).valid,
    Propagator.fits_create kind fun _ => Nat.le_of_eq (numVars_fresh kind count),
    Propagator.guards_create kind count⟩

theorem onSession_ends (solver : Solver) (sound : solver.Sound) (direct : step.propagator? = none)
    {work : Work Session Bool}
    (ends : work.Ends solver.session fun answer last =>
      step.Effect solver.state answer last.state) :
    (onSession work).Ends solver (Performed solver step) := by
  obtain ⟨propagator, session⟩ := solver
  obtain ⟨answer, last, done, effect⟩ := ends
  have whole : onSession work ⟨propagator, session⟩ = .ok answer ⟨propagator, last⟩ := by
    simp only [onSession, done]
  have grows : session.state.Grows last.state := effect.grows direct
  have laterValid : last.state.WellFormed := effect.wellFormed sound.valid
  refine Work.ends_of_eq whole ⟨effect, ⟨laterValid, sound.fits.grow grows,
    sound.guards.grow sound.fits grows sound.valid laterValid⟩, ?_, ?_, rfl⟩
  · rw [direct]
    simp
  · rw [direct]
    simp

theorem perform_ends (solver : Solver) (sound : solver.Sound) (step : Step Unit)
    (inside : ∀ l, step.literal? = some l → l.var < solver.state.numVars) :
    (perform step).Ends solver (Performed solver step) := by
  cases step with
  | add clause => exact onSession_ends solver sound rfl (Session.add_ends _ clause)
  | assign l => exact onSession_ends solver sound rfl (Session.assign_ends _ (inside l rfl))
  | propagate who =>
      refine (propagate_ends solver sound.valid sound.fits).mono ?_
      intro answer after propagated
      exact ⟨.propagated who propagated.run propagated.failed,
        ⟨propagated.run.wellFormed sound.valid, propagated.fits, propagated.guards sound.guards⟩,
        fun _ => propagated.settled sound.guards, fun _ => propagated.rest, propagated.kind⟩

/-- What every operation keeps holds at the end of a run, and the run meets no fault. -/
theorem record_keeps {count : Nat} (steps : List (Step Unit))
    (inside : ∀ step ∈ steps, ∀ l, step.literal? = some l → l.var < count)
    (holds : List (Entry Solver Unit) → Solver → Prop) (solver : Solver) (sound : solver.Sound)
    (numVars : solver.state.numVars = count) (start : holds [] solver)
    (each : ∀ past solver step answer after, solver.Sound → holds past solver →
      Performed solver step answer after → holds (past ++ [⟨solver, step, answer, after⟩]) after) :
    (record perform steps).Ends solver fun history last =>
      holds history last ∧ last.state.numVars = count ∧ history.map Entry.step = steps := by
  have kept : ∀ past solver step,
      (holds past solver ∧ solver.Sound ∧ solver.state.numVars = count) →
      (∀ l, step.literal? = some l → l.var < count) →
      (perform step).Ends solver fun answer after =>
        holds (past ++ [⟨solver, step, answer, after⟩]) after ∧ after.Sound ∧
          after.state.numVars = count := by
    intro past solver step held inside
    obtain ⟨held, sound, numVars⟩ := held
    rw [← numVars] at inside
    refine (perform_ends solver sound step inside).mono ?_
    intro answer after performed
    exact ⟨each past solver step answer after sound held performed, performed.sound,
      performed.effect.numVars.trans numVars⟩
  refine (record_ends kept steps inside [] solver ⟨start, sound, numVars⟩).mono ?_
  intro history last ended
  obtain ⟨⟨held, _, lastVars⟩, same⟩ := ended
  exact ⟨held, lastVars, same⟩

theorem rebase_ends (solver : Solver) (valid : solver.state.WellFormed) :
    rebase.Ends solver fun clauses _ => clauses = solver.state.rebased := by
  obtain ⟨propagator, session⟩ := solver
  obtain ⟨clauses, last, done, same⟩ := Session.rebase_ends session valid
  have whole : rebase ⟨propagator, session⟩ = .ok clauses ⟨propagator, last⟩ := by
    simp only [rebase, onSession, done]
  exact Work.ends_of_eq whole same

end UnitPropagation.Solver
