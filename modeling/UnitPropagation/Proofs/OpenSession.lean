import UnitPropagation.Proofs.Reachable

namespace UnitPropagation

/-! Sessions that are open to every propagator.

A propagator is handed in with whatever it remembers: it may be too small, it may have worked on
another session, and one that comes again is handed in as it was left.  Its answers then say
nothing, and it may meet a fault, but the changes that it makes are those of any propagator. -/

section

variable {σ τ : Type}

/-- Performs operations one after another, whatever happens.  One that meets a fault gives no
answer and has no entry, but what it did before that stays. -/
def attempt (perform : Step τ → Work σ Bool) : List (Step τ) → σ → List (Entry σ τ) × σ
  | [], start => ([], start)
  | step :: rest, start =>
      match perform step start with
      | .ok answer after =>
          let (history, last) := attempt perform rest after
          (⟨start, step, answer, after⟩ :: history, last)
      | .error _ after => attempt perform rest after

theorem attempt_reaches (perform : Step τ → Work σ Bool) (steps : List (Step τ)) (start : σ) :
    (attempt perform steps start).2 = reach perform start steps := by
  induction steps generalizing start with
  | nil => rfl
  | cons step rest ih =>
      rw [attempt, reach, List.foldl_cons, Work.leave]
      cases done : perform step start with
      | ok answer after => exact ih after
      | error fault after => exact ih after

/-- What holds of a run so far, and is kept by every step that may come, holds of the whole. -/
theorem attempt_keeps {perform : Step τ → Work σ Bool} {allowed : Step τ → Prop}
    {holds : List (Entry σ τ) → σ → Prop}
    (each : ∀ past start step, holds past start → allowed step →
      (perform step).EndsOr start
        (fun answer after => holds (past ++ [⟨start, step, answer, after⟩]) after) (holds past))
    (steps : List (Step τ)) (all : ∀ step ∈ steps, allowed step) (past : List (Entry σ τ))
    (start : σ) (held : holds past start) :
    holds (past ++ (attempt perform steps start).1) (attempt perform steps start).2 := by
  induction steps generalizing past start with
  | nil =>
      rw [attempt, List.append_nil]
      exact held
  | cons step rest ih =>
      have kept := each past start step held (all step (by simp))
      have others : ∀ other ∈ rest, allowed other := by
        intro other member
        exact all other (by simp [member])
      unfold Work.EndsOr at kept
      rw [attempt]
      cases done : perform step start with
      | ok answer after =>
          rw [done] at kept
          dsimp only
          rw [List.append_cons]
          exact ih others _ after kept
      | error fault after =>
          rw [done] at kept
          exact ih others past after kept

theorem attempt_steps (perform : Step τ → Work σ Bool) (steps : List (Step τ)) (start : σ) :
    ((attempt perform steps start).1.map Entry.step).Sublist steps := by
  induction steps generalizing start with
  | nil => exact .refl _
  | cons step rest ih =>
      rw [attempt]
      cases done : perform step start with
      | ok answer after => exact (ih after).cons_cons step
      | error fault after => exact (ih after).cons step

/-- Only what was offered is accepted. -/
theorem accepted_offered {perform : Step τ → Work σ Bool} {steps : List (Step τ)} {start : σ}
    {clause : Clause} (taken : clause ∈ accepted (attempt perform steps start).1) :
    clause ∈ steps.filterMap Step.clause? := by
  obtain ⟨entry, member, named⟩ := List.mem_filterMap.mp taken
  have listed : entry.step ∈ steps :=
    (attempt_steps perform steps start).subset (List.mem_map_of_mem member)
  cases answered : entry.answer with
  | true =>
      rw [answered] at named
      exact List.mem_filterMap.mpr ⟨entry.step, listed, named⟩
  | false => simp [answered] at named

end

/-- What an operation can do to a state, with what it answers then, when nothing is known of who
propagates. -/
def Step.Leads {τ : Type} (step : Step τ) (before : State) (answer : Bool) (after : State) : Prop :=
  match step with
  | .propagate _ => before.Advances after
  | direct => direct.Effect before answer after

namespace Step.Leads

variable {τ : Type} {step : Step τ} {before after : State} {answer : Bool}
  {clauses : List Clause} {literals : List Literal}

theorem of_effect (effect : step.Effect before answer after) : step.Leads before answer after := by
  cases step with
  | add | assign => exact effect
  | propagate who =>
      cases effect with
      | propagated _ run => exact run

theorem ledger (leads : step.Leads before answer after)
    (ledger : before.Ledger clauses literals) :
    after.Ledger (clauses ++ (if answer then step.clause? else none).toList)
      (literals ++ (step.literal?.filter fun l => before.model.truth l = .unknown).toList) := by
  cases step with
  | add clause => exact Effect.ledger leads ledger
  | assign l => exact Effect.ledger leads ledger
  | propagate who => simpa [clause?, literal?] using ledger.advances leads

theorem numVars (leads : step.Leads before answer after) : after.numVars = before.numVars := by
  cases step with
  | add clause => exact Effect.numVars leads
  | assign l => exact Effect.numVars leads
  | propagate who => exact State.Advances.numVars leads

theorem occupied (leads : step.Leads before answer after) {clause : Clause}
    (taken : clause ∈ (if answer then step.clause? else none).toList) : clause.literals ≠ [] := by
  cases step with
  | add offered =>
      cases leads with
      | rejected unfit => simp at taken
      | taken fit =>
          have same : clause = offered := by simpa [clause?] using taken
          rw [same]
          exact (State.rejection?_none_iff.mp fit).1
  | assign l => simp [clause?] at taken
  | propagate who => simp [clause?] at taken

end Step.Leads

namespace Session

/-- Lets a propagator run on the session, with whatever it remembers. -/
def propagate (propagator : Propagator) : Work Session Bool := fun session =>
  match Solver.runPropagator ⟨propagator, session⟩ with
  | .ok success solver => .ok success solver.session
  | .error fault solver => .error fault solver.session

def perform : Step Propagator → Work Session Bool
  | .add clause => add clause
  | .assign l => assign l
  | .propagate propagator => propagate propagator

theorem propagate_endsOr (session : Session) (valid : session.state.WellFormed)
    (propagator : Propagator) :
    (propagate propagator).EndsOr session (fun _ after => session.state.Advances after.state)
      fun after => session.state.Advances after.state := by
  have run := Solver.runPropagator_endsOr ⟨propagator, session⟩ valid
  unfold Work.EndsOr at run ⊢
  unfold propagate
  cases done : Solver.runPropagator ⟨propagator, session⟩ with
  | ok success solver =>
      rw [done] at run
      exact run
  | error fault solver =>
      rw [done] at run
      exact run

theorem perform_endsOr (session : Session) (valid : session.state.WellFormed)
    (step : Step Propagator) :
    (perform step).EndsOr session (fun answer after => step.Leads session.state answer after.state)
      fun after => session.state.Advances after.state := by
  cases step with
  | add clause => exact (add_ends session clause).endsOr
  | assign l =>
      by_cases inside : l.var < session.state.numVars
      · exact (assign_ends session inside).endsOr
      · rw [perform, Work.EndsOr, assign_outside inside]
  | propagate propagator => exact propagate_endsOr session valid propagator

/-- What a session has come to, whoever worked on it. -/
structure Kept (count : Nat) (history : List (Entry Session Propagator)) (session : Session) :
    Prop where
  numVars : session.state.numVars = count
  ledger : session.state.Ledger (accepted history) (decided state history)
  occupied : ∀ clause ∈ accepted history, clause.literals ≠ []

theorem Kept.endsOr {count : Nat} {past : List (Entry Session Propagator)} {session : Session}
    (kept : Kept count past session) (step : Step Propagator) :
    (perform step).EndsOr session
      (fun answer after => Kept count (past ++ [⟨session, step, answer, after⟩]) after)
      (Kept count past) := by
  refine (perform_endsOr session kept.ledger.valid step).mono ?_ ?_
  · intro answer after leads
    refine ⟨leads.numVars.trans kept.numVars, ?_, ?_⟩
    · rw [accepted, decided, filterMap_concat, filterMap_concat]
      exact leads.ledger kept.ledger
    · rw [accepted, filterMap_concat]
      intro clause member
      rcases List.mem_append.mp member with old | new
      · exact kept.occupied clause old
      · exact leads.occupied new
  · intro after run
    exact ⟨run.numVars.trans kept.numVars, kept.ledger.advances run, kept.occupied⟩

theorem kept_create {count : Nat} {start : Session} (created : create count = .ok start) :
    Kept count [] start := by
  rw [eq_of_create created]
  exact ⟨State.numVars_ofModel count, State.ledger_ofModel count, by simp [accepted]⟩

theorem kept_attempt {count : Nat} {start : Session} (created : create count = .ok start)
    (steps : List (Step Propagator)) :
    Kept count (attempt perform steps start).1 (attempt perform steps start).2 :=
  attempt_keeps (fun _ _ step kept _ => kept.endsOr step) steps (fun _ _ => trivial) [] start
    (kept_create created)

end Session

end UnitPropagation
