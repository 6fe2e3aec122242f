import UnitPropagation.Proofs.OpenSession

namespace UnitPropagation

/-! Nothing is undone or moved.

Numbers of clauses, places on the trail, satisfied clauses that are never looked at again and
conflicts that stay are all relied on later.  `State.Continues` is what allows it, proved for one
change and from it for every operation.  What is refused changes nothing at all. -/

instance : LE Counters where
  le earlier later := earlier.passes ≤ later.passes ∧ earlier.visits ≤ later.visits ∧
    earlier.propagations ≤ later.propagations ∧ earlier.conflicts ≤ later.conflicts

theorem Counters.le_refl (counters : Counters) : counters ≤ counters :=
  ⟨Nat.le_refl _, Nat.le_refl _, Nat.le_refl _, Nat.le_refl _⟩

theorem Counters.le_trans {first second third : Counters} (earlier : first ≤ second)
    (later : second ≤ third) : first ≤ third :=
  ⟨Nat.le_trans earlier.1 later.1, Nat.le_trans earlier.2.1 later.2.1,
    Nat.le_trans earlier.2.2.1 later.2.2.1, Nat.le_trans earlier.2.2.2 later.2.2.2⟩

theorem Assignment.Extends.value_eq {model later : Assignment} {x : Nat}
    (extension : later.Extends model) (assigned : model.value x ≠ .unknown) :
    later.value x = model.value x := by
  have positive : ∀ model : Assignment, model.truth ⟨x, true⟩ = model.value x := fun _ => rfl
  cases stored : model.value x with
  | holds => rw [← positive, extension _ ((positive model).trans stored)]
  | fails => rw [← positive, extension.fails ((positive model).trans stored)]
  | unknown => exact absurd stored assigned

namespace State

/-- `later` has everything that `state` has, where it was: what was added stands behind it, and
only slots may have moved. -/
structure Continues (later state : State) : Prop where
  trail : state.trail.toList <+: later.trail.toList
  values : ∀ x, state.model.value x ≠ .unknown → later.model.value x = state.model.value x
  clauses : ∀ id clause, state.clauses.get? id = some clause →
    ∃ same, later.clauses.get? id = some same ∧ same.literals = clause.literals
  counters : state.counters ≤ later.counters

variable {state later last : State}

theorem Continues.refl (state : State) : state.Continues state :=
  ⟨List.prefix_refl _, fun _ _ => rfl, fun _ clause found => ⟨clause, found, rfl⟩,
    Counters.le_refl _⟩

theorem Continues.trans (second : last.Continues later) (first : later.Continues state) :
    last.Continues state where
  trail := first.trail.trans second.trail
  values := by
    intro x assigned
    have kept := first.values x assigned
    rw [second.values x (by rw [kept]; exact assigned), kept]
  clauses := by
    intro id clause found
    obtain ⟨middle, middleFound, middleSame⟩ := first.clauses id clause found
    obtain ⟨same, sameFound, equal⟩ := second.clauses id middle middleFound
    exact ⟨same, sameFound, equal.trans middleSame⟩
  counters := Counters.le_trans first.counters second.counters

theorem Grows.continues (grows : state.Grows later) (counters : state.counters ≤ later.counters) :
    later.Continues state :=
  ⟨grows.trail, fun _ => grows.model.value_eq,
    fun _ clause found => ⟨clause, grows.get? found, rfl⟩, counters⟩

end State

theorem Deduction.counters {before after : State} (step : Deduction before after) :
    before.counters ≤ after.counters := by
  cases step with
  | pass => exact ⟨Nat.le_succ _, Nat.le_refl _, Nat.le_refl _, Nat.le_refl _⟩
  | visit => exact ⟨Nat.le_refl _, Nat.le_succ _, Nat.le_refl _, Nat.le_refl _⟩
  | conflict => exact ⟨Nat.le_refl _, Nat.le_refl _, Nat.le_refl _, Nat.le_succ _⟩
  | force => exact ⟨Nat.le_refl _, Nat.le_refl _, Nat.le_succ _, Nat.le_refl _⟩

theorem Advance.continues {before after : State} (step : Advance before after)
    (valid : before.WellFormed) : after.Continues before := by
  cases step with
  | deduce step => exact (step.grows valid).continues step.counters
  | watch id slot position =>
      refine ⟨List.prefix_refl _, fun _ _ => rfl, ?_, Counters.le_refl _⟩
      intro other clause found
      rw [State.watchPosition_clauses, Database.get?_watchPosition, found]
      split
      · exact ⟨_, rfl, clause.watchPosition?_literals slot position⟩
      · exact ⟨clause, rfl, rfl⟩

theorem State.Advances.continues {before after : State} (run : before.Advances after)
    (valid : before.WellFormed) : after.Continues before := by
  induction run with
  | refl => exact .refl _
  | tail run step ih => exact (step.continues (Advances.wellFormed run valid)).trans ih

theorem Step.Leads.continues {τ : Type} {step : Step τ} {before after : State} {answer : Bool}
    (leads : step.Leads before answer after) (valid : before.WellFormed) :
    after.Continues before := by
  cases step with
  | add clause =>
      cases leads with
      | rejected => exact .refl _
      | taken => exact (State.grows_addClause before clause).continues (Counters.le_refl _)
  | assign l =>
      cases leads with
      | refused | confirmed => exact .refl _
      | decided inside unassigned =>
          exact (State.grows_extend inside unassigned).continues (Counters.le_refl _)
  | propagate who => exact State.Advances.continues leads valid

namespace Step.Effect

variable {τ : Type} {step : Step τ} {before after : State} {answer : Bool}

theorem add_fails_iff {clause : Clause}
    (effect : (Step.add clause : Step τ).Effect before answer after) :
    answer = false ↔ clause.literals = [] ∨ ∃ l ∈ clause.literals, before.numVars ≤ l.var := by
  have unfit : before.rejection? clause ≠ none ↔
      clause.literals = [] ∨ ∃ l ∈ clause.literals, before.numVars ≤ l.var := by
    rw [Ne, State.rejection?_none_iff, not_and_or, not_not]
    simp
  rw [← unfit]
  cases effect with
  | rejected rejection => simp [rejection]
  | taken fit => simp [fit]

theorem assign_fails_iff {l : Literal}
    (effect : (Step.assign l : Step τ).Effect before answer after) :
    answer = false ↔ before.model.truth l = .fails := by
  cases effect with
  | refused fails => simp [fails]
  | confirmed holds => simp [holds]
  | decided inside unassigned => simp [unassigned]

/-- A clause or a literal that is refused changes nothing. -/
theorem unchanged (effect : step.Effect before answer after) (direct : step.propagator? = none)
    (refused : answer = false) : after = before := by
  cases effect with
  | rejected | refused => rfl
  | taken | confirmed | decided => cases refused
  | propagated => cases direct

end Step.Effect

namespace Session

theorem perform_continues {session : Session} (valid : session.state.WellFormed)
    (step : Step Propagator) : ((perform step).leave session).state.Continues session.state := by
  apply Work.EndsOr.leave (fun after : Session => after.state.Continues session.state)
  refine (perform_endsOr session valid step).mono ?_ ?_
  · intro answer after leads
    exact leads.continues valid
  · intro after run
    exact run.continues valid

/-- A conflict that was found before is the answer, and nothing is looked at. -/
theorem propagate_of_stored (session : Session) {watched : Watched}
    (stored : watched.conflict ≠ none) :
    (propagate (.watchedLiterals watched)).Ends session fun answer after =>
      answer = false ∧ after.state = session.state := by
  obtain ⟨id, found⟩ := Option.ne_none_iff_exists'.mp stored
  let after : Session := ⟨session.state, session.journal.push (.conflictPersists id)⟩
  have done : propagate (.watchedLiterals watched) session = .ok false after := by
    rw [propagate, Solver.runPropagator_watches (Watching.propagate_stored session found)]
  exact Work.ends_of_eq done ⟨rfl, rfl⟩

/-- Whatever has been asked of a session, the next operation adds to it and undoes nothing,
whoever propagates and however that ends.  Exactly clauses without literals or with a variable
that is not there are not taken, and exactly literals that are false already are refused; neither
changes the state, and nor does a propagator that has found a conflict before. -/
theorem nothing_undone {count : Nat} {start session : Session}
    (created : create count = .ok start) {steps : List (Step Propagator)}
    (reached : reach perform start steps = session) :
    (∀ step, ((perform step).leave session).state.Continues session.state) ∧
    (∀ clause, ∃ answer after, add clause session = .ok answer after ∧
      (answer = false ↔ clause.literals = [] ∨ ∃ l ∈ clause.literals, count ≤ l.var) ∧
      (answer = false → after.state = session.state)) ∧
    (∀ l, l.var < count → ∃ answer after, assign l session = .ok answer after ∧
      (answer = false ↔ session.state.model.truth l = .fails) ∧
      (answer = false → after.state = session.state)) ∧
    ∀ watched : Watched, watched.conflict ≠ none → ∃ after,
      propagate (.watchedLiterals watched) session = .ok false after ∧
        after.state = session.state := by
  have kept := kept_attempt created steps
  rw [attempt_reaches, reached] at kept
  refine ⟨perform_continues kept.ledger.valid, ?_, ?_, ?_⟩
  · intro clause
    obtain ⟨answer, after, done, effect⟩ := add_ends (τ := Propagator) session clause
    have refused := effect.add_fails_iff
    rw [kept.numVars] at refused
    exact ⟨answer, after, done, refused, effect.unchanged rfl⟩
  · intro l inside
    rw [← kept.numVars] at inside
    obtain ⟨answer, after, done, effect⟩ := assign_ends (τ := Propagator) session inside
    exact ⟨answer, after, done, effect.assign_fails_iff, effect.unchanged rfl⟩
  · intro watched stored
    obtain ⟨answer, after, done, failed, same⟩ := propagate_of_stored session stored
    rw [failed] at done
    exact ⟨after, done, same⟩

/-- Both literals of variable 1 are forced by the decision, so the next propagator stops in
conflict. -/
def dilemma : List (Step Propagator) :=
  [.add (.ofLiterals [⟨0, false⟩, ⟨1, true⟩]), .add (.ofLiterals [⟨0, false⟩, ⟨1, false⟩]),
    .propagate (.watchedLiterals (.forVariables 2)), .assign ⟨0, true⟩]

theorem dilemma_continues :
    ∃ session, reach perform (.ofState (.ofModel (.blank 2))) dilemma = session ∧
      (propagate (.watchedLiterals (.forVariables 2))).answer? session = some false ∧
      ((propagate (.watchedLiterals (.forVariables 2))).leave session).state.Continues
        session.state ∧
      (∃ after, add (.ofLiterals [⟨0, true⟩, ⟨2, true⟩]) session = .ok false after ∧
        after.state = session.state) ∧
      (∃ after, assign ⟨0, false⟩ session = .ok false after ∧ after.state = session.state) ∧
      ∃ after, propagate (.watchedLiterals ⟨.forVariables 2, 4, 2, some 1⟩) session =
        .ok false after ∧ after.state = session.state := by
  obtain ⟨continued, added, assigned, stored⟩ := nothing_undone
    (create_eq (by decide : 2 ≤ maxVariables)) (rfl : reach perform _ dilemma = _)
  obtain ⟨answer, rejected, adding, unfit, addedNothing⟩ :=
    added (.ofLiterals [⟨0, true⟩, ⟨2, true⟩])
  obtain ⟨reply, refused, assigning, contrary, assignedNothing⟩ := assigned ⟨0, false⟩ (by decide)
  have noAnswer : answer = false := unfit.mpr (.inr ⟨⟨2, true⟩, by decide, by decide⟩)
  have noReply : reply = false := contrary.mpr (by decide +kernel)
  rw [noAnswer] at adding
  rw [noReply] at assigning
  exact ⟨_, rfl, by decide +kernel, continued (.propagate _),
    ⟨rejected, adding, addedNothing noAnswer⟩, ⟨refused, assigning, assignedNothing noReply⟩,
    stored _ (by simp)⟩

end Session

end UnitPropagation
