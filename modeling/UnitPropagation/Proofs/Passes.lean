import UnitPropagation.Proofs.OpenSession
import UnitPropagation.Proofs.Quiescence

namespace UnitPropagation

/-! How many passes a run of a propagator takes.

Nothing but the rounds themselves counts a pass.  A scanning run makes one more at most than it
assigns variables.  A watching run makes at most two: what its first round leaves to be taken in
are true units. -/

namespace FullScan

/-- Each round but the last takes a variable from the open ones. -/
theorem scanRounds_passes {rounds : Nat} (session : Session) (valid : session.state.WellFormed)
    (enough : session.state.model.numOpen < rounds) :
    (scanRounds rounds).Ends session fun _ after =>
      session.passes < after.passes ∧
        after.passes + after.state.model.numOpen ≤
          session.passes + session.state.model.numOpen + 1 := by
  induction rounds generalizing session with
  | zero => omega
  | succ rounds ih =>
      apply scanRound_ends session valid
      · intro _ after run passed _ _
        have fewer := run.advances.numOpen_le valid
        omega
      · intro middle run passed fewer
        refine (ih middle (run.wellFormed valid) (by omega)).mono ?_
        intro _ after bounds
        omega

theorem propagate_passes (session : Session) (valid : session.state.WellFormed) :
    propagate.Ends session fun _ after =>
      session.passes < after.passes ∧
        after.passes + after.state.model.numOpen ≤
          session.passes + session.state.model.numOpen + 1 := by
  rw [propagate, Work.ends_get_bind]
  apply scanRounds_passes session valid
  have fewer : session.state.model.numOpen ≤ session.state.model.size := Nat.sub_le _ _
  exact Nat.lt_succ_of_le fewer

end FullScan

namespace Watching

/-- A second round takes in what the visits of the first one forced, and forces nothing. -/
theorem rounds_passes {left : Nat} (start : Watching) (valid : start.session.state.WellFormed)
    (fits : start.watched.Fits start.session.state) (going : start.watched.conflict = none)
    (enough : start.session.state.model.numOpen < left) :
    (rounds left).Ends start fun _ after =>
      after.passes = start.passes + 1 ∨ after.passes = start.passes + 2 := by
  cases left with
  | zero => omega
  | succ left =>
      apply round_ends start valid fits going
      · intro _ after _ passed _ _
        exact .inl passed
      · intro middle unfinished passed
        have fewer := unfinished.fewer
        cases left with
        | zero => omega
        | succ left =>
            refine (rounds_of_units middle (unfinished.course.run.wellFormed valid)
              unfinished.course.fits.indexed unfinished.made unfinished.visited).mono ?_
            intro _ after reached
            obtain ⟨_, _, visits⟩ := reached
            have again : after.passes = middle.passes + 1 := visits.passes
            omega

theorem propagate_passes (start : Watching) (valid : start.session.state.WellFormed)
    (fits : start.watched.Fits start.session.state) (going : start.watched.conflict = none) :
    propagate.Ends start fun _ after =>
      after.passes = start.passes + 1 ∨ after.passes = start.passes + 2 := by
  have fewer : start.session.state.model.numOpen ≤ start.session.state.numVars := Nat.sub_le _ _
  rw [propagate, Work.ends_get_bind, going]
  dsimp only
  rw [Work.ends_get_bind]
  exact rounds_passes start valid fits going (Nat.lt_succ_of_le fewer)

end Watching

variable {watched : Watched} {state : State}

/-- There is a list for every literal, and what is noted down about the state exists in it. -/
structure Watched.InRange (watched : Watched) (state : State) : Prop where
  room : 2 * state.numVars ≤ watched.table.size
  known : ∀ l, ∀ id ∈ (watched.table.list l).toList, id < state.clauses.size
  indexed : watched.indexed ≤ state.clauses.size
  head : watched.head ≤ state.trail.size

theorem Watched.Fits.inRange (fits : watched.Fits state) : watched.InRange state where
  room := fits.room
  known := fun l id member => fits.known l id (Nat.ne_of_gt (List.count_pos_iff.mpr member))
  indexed := fits.indexed
  head := fits.head

theorem Watched.InRange.fits (inRange : watched.InRange state) (going : watched.conflict = none) :
    watched.Fits state where
  room := inRange.room
  known := fun l id present =>
    inRange.known l id (List.count_pos_iff.mp (Nat.pos_of_ne_zero present))
  indexed := inRange.indexed
  head := inRange.head
  stored := fun stored => absurd going stored

namespace Propagator

def InRange : Propagator → State → Prop
  | .fullScan, _ => True
  | .watchedLiterals watched, state => watched.InRange state

/-- How many passes a run may take that assigns a number of variables. -/
def Allows (propagator : Propagator) (assigned passes : Nat) : Prop :=
  match propagator with
  | .fullScan => 1 ≤ passes ∧ passes ≤ assigned + 1
  | .watchedLiterals watched =>
      match watched.conflict with
      | some _ => passes = 0
      | none => passes = 1 ∨ passes = 2

theorem Fits.inRange {propagator : Propagator} (fits : propagator.Fits state) :
    propagator.InRange state := by
  cases propagator with
  | fullScan => trivial
  | watchedLiterals watched => exact Watched.Fits.inRange fits

end Propagator

theorem State.Advances.assigns {before after : State} (run : before.Advances after)
    (valid : before.WellFormed) :
    ∃ assigned, after.model.numAssigned = before.model.numAssigned + assigned ∧
      after.model.numOpen + assigned = before.model.numOpen := by
  have size : after.model.size = before.model.size := run.numVars
  have fewer := run.numOpen_le valid
  have earlier := before.model.numAssigned_le_size
  have later := after.model.numAssigned_le_size
  unfold Assignment.numOpen at fewer ⊢
  exact ⟨after.model.numAssigned - before.model.numAssigned, by omega, by omega⟩

namespace Solver

variable {before after : Solver} {success : Bool}

/-- A run succeeds and counts one pass, and leaves the rest as it was. -/
def Repeats (solver : Solver) : Prop :=
  runPropagator.Ends solver fun success after =>
    success = true ∧ after.state.counters.passes = solver.state.counters.passes + 1 ∧
      after.state.model = solver.state.model ∧ after.state.trail = solver.state.trail ∧
      after.state.clauses = solver.state.clauses ∧ after.propagator = solver.propagator

/-- What a run does to the counts, and what a second one directly after it does. -/
structure Bounded (before : Solver) (success : Bool) (after : Solver) : Prop where
  passes : ∃ assigned passes,
    after.state.model.numAssigned = before.state.model.numAssigned + assigned ∧
      after.state.counters.passes = before.state.counters.passes + passes ∧
      before.propagator.Allows assigned passes
  repeats : success = true → after.Repeats

theorem Propagated.repeats (propagated : Propagated before success after)
    (valid : before.state.WellFormed) (succeeded : success = true) : after.Repeats := by
  rw [succeeded] at propagated
  refine (runPropagator_of_idle after (propagated.run.wellFormed valid) propagated.idle).mono ?_
  intro again last reached
  obtain ⟨made, memory, visits, same⟩ := reached
  rw [same]
  exact ⟨made, rfl, rfl, rfl, rfl, memory⟩

theorem runPropagator_bounded (solver : Solver) (valid : solver.state.WellFormed)
    (inRange : solver.propagator.InRange solver.state) :
    runPropagator.Ends solver (Bounded solver) := by
  obtain ⟨propagator, session⟩ := solver
  cases propagator with
  | fullScan =>
      obtain ⟨success, last, done, less, most⟩ := FullScan.propagate_passes session valid
      have whole := runPropagator_scans done
      have propagated := (runPropagator_ends ⟨.fullScan, session⟩ valid trivial).of_eq whole
      obtain ⟨assigned, more, fewer⟩ := propagated.run.assigns valid
      obtain ⟨passes, counted⟩ := Nat.exists_eq_add_of_lt less
      refine Work.ends_of_eq whole ⟨⟨assigned, passes + 1, more, counted, ?_⟩,
        propagated.repeats valid⟩
      change last.state.model.numOpen + assigned = session.state.model.numOpen at fewer
      exact ⟨by omega, by omega⟩
  | watchedLiterals watched =>
      cases stored : watched.conflict with
      | some id =>
          have whole := runPropagator_watches (Watching.propagate_stored session stored)
          refine Work.ends_of_eq whole ⟨⟨0, 0, rfl, rfl, ?_⟩, by simp⟩
          simp only [Propagator.Allows, stored]
      | none =>
          have fits := inRange.fits stored
          obtain ⟨success, last, done, counted⟩ :=
            Watching.propagate_passes ⟨watched, session⟩ valid fits stored
          have whole := runPropagator_watches done
          have propagated :=
            (runPropagator_ends ⟨.watchedLiterals watched, session⟩ valid fits).of_eq whole
          obtain ⟨assigned, more, _⟩ := propagated.run.assigns valid
          have few : ∃ passes, last.passes = session.passes + passes ∧
              (passes = 1 ∨ passes = 2) := by
            rcases counted with once | twice
            · exact ⟨1, once, .inl rfl⟩
            · exact ⟨2, twice, .inr rfl⟩
          obtain ⟨passes, counted, within⟩ := few
          refine Work.ends_of_eq whole ⟨⟨assigned, passes, more, counted, ?_⟩,
            propagated.repeats valid⟩
          simp only [Propagator.Allows, stored]
          exact within

/-- On a state that anything may have been done to, a propagator may be one that was handed in
with anything it can remember of that state, or a member that was there all along. -/
theorem runs_bounded {count : Nat} :
    (∀ start steps session propagator, Session.create count = .ok start →
      reach Session.perform start steps = session → propagator.InRange session.state →
      runPropagator.Ends ⟨propagator, session⟩ (Bounded ⟨propagator, session⟩)) ∧
    ∀ start steps shared member, SharedSession.create count = .ok start →
      reach SharedSession.perform start steps = shared → member.Suits count →
      (shared.memory member).InRange shared.state ∧
        runPropagator.Ends ⟨shared.memory member, shared.session⟩
          (Bounded ⟨shared.memory member, shared.session⟩) := by
  constructor
  · intro start steps session propagator created reached inRange
    have kept := Session.kept_attempt created steps
    rw [attempt_reaches, reached] at kept
    exact runPropagator_bounded ⟨propagator, session⟩ kept.ledger.valid inRange
  · intro start steps shared member created reached suits
    have provided := SharedSession.provided_reach created steps
    rw [reached] at provided
    have inRange := (provided.fits member suits).inRange
    exact ⟨inRange, runPropagator_bounded ⟨shared.memory member, shared.session⟩ provided.valid
      inRange⟩

/-- Each clause forces its literal only after the next one has. -/
def chain {τ : Type} : List (Step τ) :=
  [.add (.ofLiterals [⟨2, false⟩, ⟨3, true⟩]), .add (.ofLiterals [⟨1, false⟩, ⟨2, true⟩]),
    .add (.ofLiterals [⟨0, false⟩, ⟨1, true⟩]), .add (.ofLiterals [⟨0, true⟩])]

/-- Scanning needs a pass for every literal, and watching needs two. -/
theorem chain_bounded :
    ∃ session shared, reach Session.perform (.ofState (.ofModel (.blank 4))) chain = session ∧
      reach SharedSession.perform (.fresh 4) chain = shared ∧
      Propagator.InRange (.watchedLiterals (.forVariables 4)) session.state ∧
      (Member.mk .fullScan 0 0).Suits 4 ∧
      runPropagator.Ends ⟨.watchedLiterals (.forVariables 4), session⟩
        (Bounded ⟨.watchedLiterals (.forVariables 4), session⟩) ∧
      runPropagator.Ends ⟨.fullScan, shared.session⟩ (Bounded ⟨.fullScan, shared.session⟩) ∧
      (runPropagator.leave ⟨.watchedLiterals (.forVariables 4), session⟩).session.passes = 2 ∧
      (runPropagator.leave ⟨.fullScan, shared.session⟩).session.passes = 5 := by
  have created := Session.create_eq (by decide : 4 ≤ maxVariables)
  have sharedCreated := SharedSession.create_eq (by decide : 4 ≤ maxVariables)
  have room : (reach Session.perform (.ofState (.ofModel (.blank 4))) chain).state.numVars ≤ 4 := by
    decide +kernel
  have inRange := (Watched.fits_forVariables room).inRange
  have watches := runs_bounded.1 _ chain _ (.watchedLiterals (.forVariables 4)) created rfl inRange
  have scans := (runs_bounded.2 _ chain _ ⟨.fullScan, 0, 0⟩ sharedCreated rfl (by decide)).2
  exact ⟨_, _, rfl, rfl, inRange, by decide, watches, scans, by decide +kernel, by decide +kernel⟩

end Solver

end UnitPropagation
