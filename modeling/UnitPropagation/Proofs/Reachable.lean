import UnitPropagation.Proofs.SharedSession
import UnitPropagation.Proofs.Solver

namespace UnitPropagation

/-! States that are reached whatever is asked for.

An operation may name a variable that is not there, and a propagator may be too small for the
state that it works on.  Either is a fault, which leaves behind what was done before it.  All of
that are changes that a propagator makes anyway. -/

section

variable {σ τ : Type}

/-- What operations leave one after another, each whether it ends or meets a fault. -/
def reach (perform : Step τ → Work σ Bool) (start : σ) (steps : List (Step τ)) : σ :=
  steps.foldl (fun current step => (perform step).leave current) start

theorem reach_keeps {perform : Step τ → Work σ Bool} (holds : σ → Prop)
    (each : ∀ current step, holds current → holds ((perform step).leave current)) {start : σ}
    (held : holds start) (steps : List (Step τ)) : holds (reach perform start steps) := by
  induction steps generalizing start with
  | nil => exact held
  | cons step rest ih => exact ih (each start step held)

end

theorem Session.assign_outside {l : Literal} {session : Session}
    (outside : ¬ l.var < session.state.numVars) :
    assign l session = .error (.outOfBounds session.state.numVars l.var) session := by
  have beyond : ¬ l.var < session.state.model.size := outside
  have failed : session.state.truth l =
      .error (.outOfBounds session.state.numVars l.var) := by
    simp only [State.truth, Assignment.truthAt, Assignment.requireVariable, beyond, ↓reduceIte]
    rfl
  rw [assign_apply, failed]

theorem State.get?_of_clauseAt {state : State} {id : Nat} {clause : Clause}
    (fetched : state.clauseAt id = .ok clause) : state.clauses.get? id = some clause := by
  unfold clauseAt Database.clauseAt at fetched
  cases found : state.clauses.get? id with
  | none =>
      rw [found] at fetched
      cases fetched
  | some stored =>
      rw [found] at fetched
      change (state.requireVariables stored >>= fun _ => pure stored) = .ok clause at fetched
      cases checked : state.requireVariables stored with
      | error fault =>
          rw [checked] at fetched
          cases fetched
      | ok _ =>
          rw [checked] at fetched
          cases fetched
          rfl

namespace Watching

variable {α β : Type} {origin : State}

/-- However it ends, the work makes only such changes as a propagator may make. -/
def Stays (origin : State) (work : Work Watching α) : Prop :=
  ∀ start, origin.Advances start.session.state →
    work.EndsOr start (fun _ after => origin.Advances after.session.state)
      fun after => origin.Advances after.session.state

theorem Stays.bind {work : Work Watching α} {next : α → Work Watching β} (first : Stays origin work)
    (continued : ∀ result, Stays origin (next result)) : Stays origin (work >>= next) := by
  intro start came
  apply (first start came).bind
  intro result after came
  exact continued result after came

theorem stays_pure (result : α) : Stays origin (pure result) := fun _ came => came

theorem stays_throw (fault : Fault) : Stays origin (throw fault : Work Watching α) :=
  fun _ came => came

theorem stays_get_bind {next : Watching → Work Watching β}
    (continued : ∀ watching, Stays origin (next watching)) : Stays origin (get >>= next) :=
  fun start => continued start start

theorem stays_modify {step : Watching → Watching}
    (same : ∀ watching, (step watching).session = watching.session) :
    Stays origin (modify step) := by
  intro start came
  change origin.Advances (step start).session.state
  rw [same]
  exact came

theorem stays_stop (id : Nat) : Stays origin (stop id) := stays_modify fun _ => rfl

theorem stays_onTable (work : Work WatchTable α) : Stays origin (onTable work) := by
  intro start came
  obtain ⟨⟨table, indexed, head, conflict⟩, session⟩ := start
  unfold Work.EndsOr onTable
  dsimp only
  cases work table <;> exact came

theorem stays_note (event : Event) : Stays origin (onSession (Session.note event)) :=
  fun _ came => came

theorem stays_change {step : State → State} (advance : ∀ state, Advance state (step state)) :
    Stays origin (onSession (Session.change step)) :=
  fun _ came => came.tail (advance _)

theorem stays_reportConflict (id : Nat) (clause : Clause) :
    Stays origin (onSession (Session.reportConflict id clause)) :=
  fun _ came => came.tail (.deduce (.conflict _))

/-- A visit counts before it can fail, and what it fetches is the clause with that number. -/
theorem visitClause_endsOr (id : Nat) {start : Watching}
    (came : origin.Advances start.session.state) :
    (onSession (Session.visitClause id)).EndsOr start
      (fun clause after => origin.Advances after.session.state ∧
        after.session.state.clauses.get? id = some clause)
      fun after => origin.Advances after.session.state := by
  have counted : origin.Advances start.session.state.countVisit :=
    came.tail (.deduce (.visit _))
  obtain ⟨watched, session⟩ := start
  simp only [Work.EndsOr, onSession, Session.visitClause, Work.bind_apply, Session.change_apply,
    Session.query_apply]
  cases fetched : session.state.countVisit.clauseAt id with
  | error fault => exact counted
  | ok clause => exact ⟨counted, State.get?_of_clauseAt fetched⟩

section

variable (valid : origin.WellFormed)

include valid

theorem force_endsOr {id : Nat} {clause : Clause} {l : Literal} {start : Watching}
    (came : origin.Advances start.session.state)
    (found : start.session.state.clauses.get? id = some clause)
    (forced : start.session.state.model.Forces clause.literals l) :
    (onSession (Session.force l id clause)).EndsOr start
      (fun _ after => origin.Advances after.session.state)
      fun after => origin.Advances after.session.state := by
  have inside := (came.wellFormed valid).var_lt found forced.mem
  have made := came.tail (.deduce (.force found forced))
  obtain ⟨watched, session⟩ := start
  simp only [Work.EndsOr, onSession, Session.force_apply session inside forced.unknown]
  exact made

theorem stays_visitWatchers (falseLiteral : Literal) (rest : List Nat) (kept : Array Nat) :
    Stays origin (visitWatchers falseLiteral rest kept) := by
  induction rest generalizing kept with
  | nil => exact (stays_onTable _).bind fun _ => stays_pure _
  | cons id rest ih =>
      intro start came
      rw [visitWatchers]
      apply (visitClause_endsOr id came).bind
      intro clause middle fetched
      obtain ⟨came, found⟩ := fetched
      have described := clause.visit_describes middle.session.state.model falseLiteral
      rw [Work.endsOr_get_bind]
      cases answer : clause.visit middle.session.state.model falseLiteral with
      | release => exact ih kept middle came
      | keep => exact ih (kept.push id) middle came
      | move slot position l =>
          exact (stays_change fun _ => .watch _ id slot position).bind
            (fun _ => (stays_onTable _).bind fun _ => ih kept) middle came
      | force other =>
          -- The slots may be anywhere: the visit itself has looked at every other position.
          rw [answer] at described
          apply (force_endsOr valid came found described).bind
          intro made after came
          cases made with
          | true => exact ih (kept.push id) after came
          | false => exact (stays_onTable _).bind (fun _ => stays_pure _) after came
      | conflict =>
          exact (stays_reportConflict id clause).bind
            (fun _ => (stays_onTable _).bind fun _ => stays_pure _) middle came

theorem stays_indexClause (id : Nat) : Stays origin (indexClause id) := by
  intro start came
  rw [indexClause]
  apply (visitClause_endsOr id came).bind
  intro clause middle fetched
  obtain ⟨came, found⟩ := fetched
  have described := clause.intake_describes middle.session.state.model
  rw [Work.endsOr_get_bind]
  cases answer : clause.intake middle.session.state.model with
  | idle => exact came
  | conflict => exact (stays_reportConflict id clause).bind (fun _ => stays_pure _) middle came
  | force l =>
      rw [answer] at described
      exact force_endsOr valid came found described
  | watch first firstLiteral second secondLiteral =>
      exact (stays_change fun _ => .watch _ id .first first).bind
        (fun _ => (stays_change fun _ => .watch _ id .second second).bind
          fun _ => (stays_onTable _).bind fun _ => (stays_onTable _).bind fun _ => stays_pure _)
        middle came

theorem stays_indexClauses (steps : Nat) : Stays origin (indexClauses steps) := by
  induction steps with
  | zero => exact stays_throw _
  | succ steps ih =>
      rw [indexClauses]
      apply stays_get_bind
      intro watching
      apply stays_get_bind
      intro _
      split
      · refine Stays.bind (stays_modify fun _ => rfl) ?_
        intro _
        apply (stays_indexClause valid _).bind
        intro taken
        cases taken with
        | true => exact ih
        | false => exact (stays_stop _).bind fun _ => stays_pure _
      · exact stays_pure _

theorem stays_visitTrail (steps : Nat) : Stays origin (visitTrail steps) := by
  induction steps with
  | zero => exact stays_throw _
  | succ steps ih =>
      rw [visitTrail]
      apply stays_get_bind
      intro watching
      apply stays_get_bind
      intro _
      split
      · exact stays_pure _
      · refine Stays.bind (stays_modify fun _ => rfl) ?_
        intro _
        apply Stays.bind ((stays_onTable _).bind fun _ => stays_visitWatchers valid _ _ _)
        intro conflict
        cases conflict with
        | none => exact ih
        | some id => exact (stays_stop _).bind fun _ => stays_pure _

theorem stays_rounds (left : Nat) : Stays origin (rounds left) := by
  induction left with
  | zero => exact stays_throw _
  | succ left ih =>
      rw [rounds]
      apply (stays_change fun _ => .deduce (.pass _)).bind
      intro _
      apply stays_get_bind
      intro _
      apply stays_get_bind
      intro _
      apply (stays_indexClauses valid _).bind
      intro taken
      cases taken with
      | false => exact stays_pure _
      | true =>
          apply stays_get_bind
          intro _
          apply stays_get_bind
          intro _
          apply (stays_visitTrail valid _).bind
          intro visited
          cases visited with
          | false => exact stays_pure _
          | true =>
              apply stays_get_bind
              intro _
              apply stays_get_bind
              intro _
              split
              · exact (stays_note _).bind fun _ => stays_pure _
              · exact ih

theorem stays_propagate : Stays origin propagate := by
  rw [propagate]
  apply stays_get_bind
  intro watching
  split
  · exact (stays_note _).bind fun _ => stays_pure _
  · apply stays_get_bind
    intro _
    exact stays_rounds valid _

end

end Watching

/-- Whatever a propagator remembers, it makes only such changes. -/
theorem Solver.runPropagator_endsOr (solver : Solver) (valid : solver.state.WellFormed) :
    runPropagator.EndsOr solver (fun _ after => solver.state.Advances after.state)
      fun after => solver.state.Advances after.state := by
  obtain ⟨propagator, session⟩ := solver
  cases propagator with
  | fullScan =>
      apply Work.Ends.endsOr
      refine (runPropagator_ends ⟨.fullScan, session⟩ valid trivial).mono ?_
      intro _ _ propagated
      exact propagated.run
  | watchedLiterals watched =>
      have stays := Watching.stays_propagate valid ⟨watched, session⟩ .refl
      unfold Work.EndsOr at stays ⊢
      simp only [runPropagator]
      cases done : Watching.propagate ⟨watched, session⟩ with
      | ok success watching =>
          rw [done] at stays
          exact stays
      | error fault watching =>
          rw [done] at stays
          exact stays

namespace Solver

variable {solver start : Solver}

theorem assign_outside {l : Literal} (outside : ¬ l.var < solver.state.numVars) :
    (assign l).leave solver = solver := by
  obtain ⟨propagator, session⟩ := solver
  simp only [Work.leave, assign, onSession, Session.assign_outside outside]

/-- What holds of a solver whatever has been asked of it. -/
structure Intact (kind : PropagatorKind) (count : Nat) (solver : Solver) : Prop where
  sound : solver.Sound
  kind : solver.propagator.kind = kind
  numVars : solver.state.numVars = count
  ledger : ∃ accepted decided, solver.state.Ledger accepted decided

variable {kind : PropagatorKind} {count : Nat}

theorem Intact.perform {step : Step Unit} {answer : Bool} {after : Solver}
    (intact : Intact kind count solver) (performed : Performed solver step answer after) :
    Intact kind count after where
  sound := performed.sound
  kind := performed.kind.trans intact.kind
  numVars := performed.effect.numVars.trans intact.numVars
  ledger := by
    obtain ⟨accepted, decided, ledger⟩ := intact.ledger
    exact ⟨_, _, performed.effect.ledger ledger⟩

theorem Intact.leave (intact : Intact kind count solver) (step : Step Unit) :
    Intact kind count ((Solver.perform step).leave solver) := by
  have ended : (∀ l, step.literal? = some l → l.var < solver.state.numVars) →
      Intact kind count ((Solver.perform step).leave solver) := by
    intro inside
    apply Work.Ends.leave (Intact kind count)
    refine (perform_ends solver intact.sound step inside).mono ?_
    intro answer after performed
    exact intact.perform performed
  cases step with
  | add clause => exact ended (by nofun)
  | propagate who => exact ended (by nofun)
  | assign l =>
      by_cases inside : l.var < solver.state.numVars
      · apply ended
        intro other named
        cases named
        exact inside
      · rw [Solver.perform, assign_outside inside]
        exact intact

theorem intact_create (created : create kind count = .ok start) : Intact kind count start := by
  rw [eq_of_create created]
  refine ⟨sound_fresh kind count, ?_, numVars_fresh kind count, [], [],
    State.ledger_ofModel count⟩
  cases kind <;> rfl

theorem intact_reach (created : create kind count = .ok start) (steps : List (Step Unit)) :
    Intact kind count (reach perform start steps) :=
  reach_keeps (Intact kind count) (fun _ step intact => intact.leave step) (intact_create created)
    steps

theorem Intact.propagate_ends (intact : Intact kind count solver) :
    propagate.Ends solver (Performed solver (.propagate ())) :=
  perform_ends solver intact.sound (.propagate ()) (by nofun)

end Solver

namespace SharedSession

variable {shared start : SharedSession}

/-- The state is what some accepted clauses, some decided literals and propagation have made. -/
def Accounted (shared : SharedSession) : Prop :=
  ∃ accepted decided, shared.state.Ledger accepted decided

theorem Accounted.leave (accounted : shared.Accounted) (step : Step Member) :
    ((perform step).leave shared).Accounted := by
  obtain ⟨accepted, decided, ledger⟩ := accounted
  obtain ⟨memory, session⟩ := shared
  -- An operation that does not propagate changes the session alone.
  have direct : ∀ {work : Work Session Bool}, work.Ends session (fun answer last =>
      step.Effect session.state answer last.state) →
      ((onSession work).leave ⟨memory, session⟩).Accounted := by
    intro work ends
    obtain ⟨answer, last, done, effect⟩ := ends
    simp only [Work.leave, onSession, done]
    exact ⟨_, _, effect.ledger ledger⟩
  cases step with
  | add clause => exact direct (Session.add_ends session clause)
  | assign l =>
      by_cases inside : l.var < session.state.numVars
      · exact direct (Session.assign_ends session inside)
      · simp only [perform, Work.leave, onSession, Session.assign_outside inside]
        exact ⟨_, _, ledger⟩
  | propagate member =>
      have run := Solver.runPropagator_endsOr ⟨memory member, session⟩ ledger.valid
      unfold Work.EndsOr at run
      simp only [perform, propagate, Work.leave]
      cases done : Solver.runPropagator ⟨memory member, session⟩ with
      | ok success solver =>
          rw [done] at run
          exact ⟨_, _, ledger.advances run⟩
      | error fault solver =>
          rw [done] at run
          exact ⟨_, _, ledger.advances run⟩

theorem accounted_create {count : Nat} (created : create count = .ok start) :
    start.Accounted := by
  rw [eq_of_create created]
  exact ⟨[], [], State.ledger_ofModel count⟩

theorem accounted_reach {count : Nat} (created : create count = .ok start)
    (steps : List (Step Member)) : (reach perform start steps).Accounted :=
  reach_keeps Accounted (fun _ step accounted => accounted.leave step) (accounted_create created)
    steps

/-- Every member with room for the variables has what it will ask for. -/
structure Provided (count : Nat) (shared : SharedSession) : Prop where
  valid : shared.state.WellFormed
  numVars : shared.state.numVars = count
  fits : ∀ member, member.Suits count → (shared.memory member).Fits shared.state

variable {count : Nat}

theorem Provided.onSession {step : Step Member} {work : Work Session Bool}
    (provided : Provided count shared) (direct : step.propagator? = none)
    (ends : work.Ends shared.session fun answer last =>
      step.Effect shared.state answer last.state) :
    Provided count ((onSession work).leave shared) := by
  obtain ⟨memory, session⟩ := shared
  obtain ⟨answer, last, done, effect⟩ := ends
  have grows : session.state.Grows last.state := effect.grows direct
  simp only [Work.leave, SharedSession.onSession, done]
  exact ⟨effect.wellFormed provided.valid, grows.numVars.trans provided.numVars,
    fun member suits => (provided.fits member suits).grow grows⟩

theorem Provided.advance (provided : Provided count shared) {member : Member}
    {propagator : Propagator} {session : Session}
    (run : shared.state.Advances session.state)
    (fits : member.Suits count → propagator.Fits session.state) :
    Provided count ⟨Function.update shared.memory member propagator, session⟩ where
  valid := run.wellFormed provided.valid
  numVars := run.numVars.trans provided.numVars
  fits := (Function.forall_update_iff shared.memory fun other propagator =>
      other.Suits count → propagator.Fits session.state).mpr
    ⟨fits, fun other _ suits => (provided.fits other suits).advance run provided.valid⟩

theorem Provided.leave (provided : Provided count shared) (step : Step Member) :
    Provided count ((perform step).leave shared) := by
  cases step with
  | add clause => exact provided.onSession rfl (Session.add_ends shared.session clause)
  | assign l =>
      by_cases inside : l.var < shared.session.state.numVars
      · exact provided.onSession rfl (Session.assign_ends shared.session inside)
      · simp only [perform, Work.leave, SharedSession.onSession, Session.assign_outside inside]
        exact provided
  | propagate member =>
      obtain ⟨memory, session⟩ := shared
      by_cases suits : member.Suits count
      · obtain ⟨success, solver, done, propagated⟩ := Solver.runPropagator_ends
          ⟨memory member, session⟩ provided.valid (provided.fits member suits)
        simp only [perform, propagate, Work.leave, done]
        exact provided.advance propagated.run fun _ => propagated.fits
      · -- A member without room may meet a fault, and has nothing to keep.
        have run := Solver.runPropagator_endsOr ⟨memory member, session⟩ provided.valid
        unfold Work.EndsOr at run
        simp only [perform, propagate, Work.leave]
        cases done : Solver.runPropagator ⟨memory member, session⟩ with
        | ok success solver | error fault solver =>
            rw [done] at run
            exact provided.advance run fun fitting => absurd fitting suits

theorem provided_create (created : create count = .ok start) : Provided count start := by
  have numVars : (fresh count).state.numVars = count := State.numVars_ofModel count
  rw [eq_of_create created]
  refine ⟨(equipped_fresh count).valid, numVars, ?_⟩
  intro member suits
  rw [← numVars] at suits
  exact (equipped_fresh count).fits member suits

theorem provided_reach (created : create count = .ok start) (steps : List (Step Member)) :
    Provided count (reach perform start steps) :=
  reach_keeps (Provided count) (fun _ step provided => provided.leave step)
    (provided_create created) steps

end SharedSession

end UnitPropagation
