import UnitPropagation.Proofs.Ledger
import UnitPropagation.Proofs.Session

namespace UnitPropagation

/-! Runs: operations performed one after another, with what each of them answered.

`Step.Effect` says once what an operation can do to a state, and everything else about runs
follows from it.  `Records` is what a state shows of the whole run that led to it. -/

/-- An operation.  `τ` has a name for each propagator that can be asked to run. -/
inductive Step (τ : Type) where
  | add (clause : Clause)
  | assign (l : Literal)
  | propagate (who : τ)
deriving DecidableEq, Repr

namespace Step

variable {τ : Type}

def clause? : Step τ → Option Clause
  | .add clause => some clause
  | .assign _ => none
  | .propagate _ => none

def literal? : Step τ → Option Literal
  | .add _ => none
  | .assign l => some l
  | .propagate _ => none

def propagator? : Step τ → Option τ
  | .add _ => none
  | .assign _ => none
  | .propagate who => some who

theorem forall_of_filterMap {α : Type} {steps : List (Step τ)} {named : Step τ → Option α}
    {claim : α → Prop} (all : ∀ item ∈ steps.filterMap named, claim item) :
    ∀ step ∈ steps, ∀ item, named step = some item → claim item :=
  fun step member item same => all item (List.mem_filterMap.mpr ⟨step, member, same⟩)

end Step

/-- An operation that was performed, what it answered, and what it found and left. -/
structure Entry (σ τ : Type) where
  before : σ
  step : Step τ
  answer : Bool
  after : σ

section

variable {σ τ : Type}

/-- A propagation that did not succeed. -/
def Entry.Failed (entry : Entry σ τ) : Prop :=
  entry.step.propagator?.isSome ∧ entry.answer = false

instance (entry : Entry σ τ) : Decidable entry.Failed :=
  inferInstanceAs (Decidable (_ ∧ _))

/-- Performs operations one after another and keeps an entry of each. -/
def record (perform : Step τ → Work σ Bool) : List (Step τ) → Work σ (List (Entry σ τ))
  | [] => return []
  | step :: rest => do
      let before ← get
      let answer ← perform step
      let after ← get
      let history ← record perform rest
      return ⟨before, step, answer, after⟩ :: history

/-- The entries of a run and what it leaves in the end. -/
def replay (perform : Step τ → Work σ Bool) (start : Except Fault σ) (steps : List (Step τ)) :
    Except Fault (List (Entry σ τ) × σ) := do
  match record perform steps (← start) with
  | .ok history last => return (history, last)
  | .error fault _ => throw fault

/-- The clauses that were offered and taken. -/
def accepted (history : List (Entry σ τ)) : List Clause :=
  history.filterMap fun entry => if entry.answer then entry.step.clause? else none

/-- The literals that an assignment found open, and so made true itself. -/
def decided (view : σ → State) (history : List (Entry σ τ)) : List Literal :=
  history.filterMap fun entry =>
    entry.step.literal?.filter fun l => (view entry.before).model.truth l = .unknown

theorem record_cons {perform : Step τ → Work σ Bool} {start after last : σ} {step : Step τ}
    {answer : Bool} {steps : List (Step τ)} {history : List (Entry σ τ)}
    (first : perform step start = .ok answer after)
    (rest : record perform steps after = .ok history last) :
    record perform (step :: steps) start = .ok (⟨start, step, answer, after⟩ :: history) last := by
  simp only [record, Work.bind_apply, Work.get_apply, first, rest]
  rfl

/-- What holds of a run so far and is kept by every step that may come holds of the whole. -/
theorem record_ends {perform : Step τ → Work σ Bool} {allowed : Step τ → Prop}
    {holds : List (Entry σ τ) → σ → Prop}
    (each : ∀ past start step, holds past start → allowed step →
      (perform step).Ends start fun answer after =>
        holds (past ++ [⟨start, step, answer, after⟩]) after)
    (steps : List (Step τ)) (all : ∀ step ∈ steps, allowed step) (past : List (Entry σ τ))
    (start : σ) (held : holds past start) :
    (record perform steps).Ends start fun history last =>
      holds (past ++ history) last ∧ history.map Entry.step = steps := by
  induction steps generalizing past start with
  | nil =>
      rw [record, Work.ends_pure, List.append_nil]
      exact ⟨held, rfl⟩
  | cons step rest ih =>
      obtain ⟨answer, after, first, kept⟩ := each past start step held (all step (by simp))
      obtain ⟨history, last, others, whole, same⟩ :=
        ih (fun other member => all other (by simp [member])) _ after kept
      refine Work.ends_of_eq (record_cons first others) ⟨?_, by rw [List.map_cons, same]⟩
      rw [List.append_cons]
      exact whole

theorem replay_of_record {perform : Step τ → Work σ Bool} {start last : σ} {steps : List (Step τ)}
    {history : List (Entry σ τ)} (done : record perform steps start = .ok history last) :
    replay perform (.ok start) steps = .ok (history, last) := by
  change (match record perform steps start with
    | .ok history last => pure (history, last)
    | .error fault _ => throw fault) = Except.ok (history, last)
  rw [done]
  rfl

theorem replay_ends {perform : Step τ → Work σ Bool} {allowed : Step τ → Prop}
    {holds : List (Entry σ τ) → σ → Prop}
    (each : ∀ past start step, holds past start → allowed step →
      (perform step).Ends start fun answer after =>
        holds (past ++ [⟨start, step, answer, after⟩]) after)
    (steps : List (Step τ)) (all : ∀ step ∈ steps, allowed step) (start : σ)
    (held : holds [] start) :
    ∃ history last, replay perform (.ok start) steps = .ok (history, last) ∧
      holds history last ∧ history.map Entry.step = steps := by
  obtain ⟨history, last, done, kept, same⟩ := record_ends each steps all [] start held
  exact ⟨history, last, replay_of_record done, kept, same⟩

end

namespace State

variable {state later : State} {clause : Clause}

theorem rejection?_none_iff : state.rejection? clause = none ↔
    clause.literals ≠ [] ∧ ∀ l ∈ clause.literals, l.var < state.numVars := by
  unfold rejection?
  cases empty : clause.isEmpty with
  | true =>
      have none : clause.literals = [] := by simpa [Clause.isEmpty] using empty
      simp [none]
  | false =>
      have some : clause.literals ≠ [] := by simpa [Clause.isEmpty] using empty
      simp [some]

theorem rejection?_congr (same : later.numVars = state.numVars) (clause : Clause) :
    later.rejection? clause = state.rejection? clause := by
  simp only [rejection?, same]

end State

/-- What an operation can do to a state, with what it answers then. -/
inductive Step.Effect {τ : Type} : Step τ → State → Bool → State → Prop
  | rejected {state : State} {clause : Clause} (unfit : state.rejection? clause ≠ none) :
      Effect (.add clause) state false state
  | taken {state : State} {clause : Clause} (fit : state.rejection? clause = none) :
      Effect (.add clause) state true (state.addClause clause)
  | refused {state : State} {l : Literal} (fails : state.model.truth l = .fails) :
      Effect (.assign l) state false state
  | confirmed {state : State} {l : Literal} (holds : state.model.truth l = .holds) :
      Effect (.assign l) state true state
  | decided {state : State} {l : Literal} (inside : l.var < state.numVars)
      (unassigned : state.model.truth l = .unknown) :
      Effect (.assign l) state true (state.extend l)
  | propagated {before after : State} {answer : Bool} (who : τ) (run : before.Advances after)
      (failed : answer = false → after.Conflicted) :
      Effect (.propagate who) before answer after

theorem Session.add_ends {τ : Type} (session : Session) (clause : Clause) :
    (Session.add clause).Ends session fun answer after =>
      (Step.add clause : Step τ).Effect session.state answer after.state := by
  have applied := add_apply clause session
  cases rejection : session.state.rejection? clause with
  | none =>
      rw [rejection] at applied
      exact Work.ends_of_eq applied (.taken rejection)
  | some reason =>
      have unfit : session.state.rejection? clause ≠ none := by simp [rejection]
      rw [rejection] at applied
      cases reason with
      | empty => exact Work.ends_of_eq applied (.rejected unfit)
      | outside l => exact Work.ends_of_eq applied (.rejected unfit)

theorem Session.assign_ends {τ : Type} (session : Session) {l : Literal}
    (inside : l.var < session.state.numVars) :
    (Session.assign l).Ends session fun answer after =>
      (Step.assign l : Step τ).Effect session.state answer after.state := by
  have applied := assign_apply l session
  rw [State.truth_ok inside] at applied
  cases truth : session.state.model.truth l with
  | fails =>
      rw [truth] at applied
      exact Work.ends_of_eq applied (.refused truth)
  | holds =>
      rw [truth] at applied
      exact Work.ends_of_eq applied (.confirmed truth)
  | unknown =>
      rw [truth] at applied
      exact Work.ends_of_eq applied (.decided inside truth)

namespace Step.Effect

variable {τ : Type} {step : Step τ} {before after : State} {answer : Bool}
  {clauses : List Clause} {literals : List Literal}

theorem grows (effect : step.Effect before answer after) (direct : step.propagator? = none) :
    before.Grows after := by
  cases effect with
  | rejected | refused | confirmed => exact .refl _
  | taken => exact State.grows_addClause _ _
  | decided inside unassigned => exact State.grows_extend inside unassigned
  | propagated => cases direct

theorem numVars (effect : step.Effect before answer after) : after.numVars = before.numVars := by
  cases effect with
  | rejected | refused | confirmed | taken => rfl
  | decided => exact Assignment.size_set _ _
  | propagated who run => exact run.numVars

theorem wellFormed (effect : step.Effect before answer after) (valid : before.WellFormed) :
    after.WellFormed := by
  cases effect with
  | rejected | refused | confirmed => exact valid
  | taken fit => exact valid.addClause (State.rejection?_none_iff.mp fit).2
  | decided inside unassigned => exact valid.extend inside unassigned
  | propagated who run => exact run.wellFormed valid

theorem extends_model (effect : step.Effect before answer after) (valid : before.WellFormed) :
    after.model.Extends before.model := by
  cases effect with
  | rejected | refused | confirmed | taken => exact .refl _
  | decided inside unassigned => exact Assignment.extends_set inside unassigned
  | propagated who run => exact run.extends_model valid

theorem conflicted (effect : step.Effect before answer after) (valid : before.WellFormed)
    (conflicted : before.Conflicted) : after.Conflicted := by
  cases effect with
  | propagated who run => exact conflicted.advances run valid
  | rejected unfit => exact conflicted
  | refused fails => exact conflicted
  | confirmed holds => exact conflicted
  | taken fit => exact conflicted.grows (State.grows_addClause _ _)
  | decided inside unassigned => exact conflicted.grows (State.grows_extend inside unassigned)

theorem ledger (effect : step.Effect before answer after)
    (ledger : before.Ledger clauses literals) :
    after.Ledger (clauses ++ (if answer then step.clause? else none).toList)
      (literals ++ (step.literal?.filter fun l => before.model.truth l = .unknown).toList) := by
  cases effect with
  | rejected unfit => simpa [clause?, literal?] using ledger
  | taken fit =>
      simpa [clause?, literal?] using ledger.addClause (State.rejection?_none_iff.mp fit).2
  | refused fails => simpa [clause?, literal?, Option.filter, fails] using ledger
  | confirmed holds => simpa [clause?, literal?, Option.filter, holds] using ledger
  | decided inside unassigned =>
      simpa [clause?, literal?, Option.filter, unassigned] using ledger.decide inside unassigned
  | propagated who run => simpa [clause?, literal?] using ledger.advances run

theorem truth_assigned {l : Literal}
    (effect : (Step.assign l : Step τ).Effect before answer after) :
    after.model.truth l = if answer then .holds else .fails := by
  cases effect with
  | refused fails => exact fails
  | confirmed holds => exact holds
  | decided inside unassigned => exact Assignment.truth_set_self inside

theorem taken_eq (effect : step.Effect before answer after) :
    (if answer then step.clause? else none).toList =
      step.clause?.toList.filter fun clause => after.rejection? clause = none := by
  have same := State.rejection?_congr effect.numVars
  cases effect with
  | rejected unfit => simp [clause?, unfit]
  | taken fit => simp [clause?, same, fit]
  | refused | confirmed | decided | propagated => simp [clause?]

theorem conflicted_of_failed (effect : step.Effect before answer after)
    (asked : step.propagator?.isSome) (failed : answer = false) : after.Conflicted := by
  cases effect with
  | propagated who run conflicted => exact conflicted failed
  | rejected | taken | refused | confirmed | decided => cases asked

end Step.Effect

section

variable {σ τ : Type} {view : σ → State} {past : List (Entry σ τ)} {start after : σ}
  {step : Step τ} {answer : Bool}

theorem filterMap_concat {α β : Type} (choose : α → Option β) (list : List α) (last : α) :
    (list ++ [last]).filterMap choose = list.filterMap choose ++ (choose last).toList := by
  rw [List.filterMap_append]
  cases chosen : choose last <;> simp [chosen]

/-- What a state shows of the run that led to it. -/
structure Records (view : σ → State) (history : List (Entry σ τ)) (state : State) : Prop where
  ledger : state.Ledger (accepted history) (decided view history)
  offered : accepted history = (history.filterMap fun entry => entry.step.clause?).filter
    fun clause => state.rejection? clause = none
  assigned : ∀ entry ∈ history, ∀ l, entry.step = .assign l →
    state.model.truth l = if entry.answer then .holds else .fails
  failed : ∀ entry ∈ history, entry.Failed → state.Conflicted

theorem records_nil (count : Nat) :
    Records view ([] : List (Entry σ τ)) (.ofModel (.blank count)) :=
  ⟨State.ledger_ofModel count, rfl, by simp, by simp⟩

theorem Records.push (records : Records view past (view start))
    (effect : step.Effect (view start) answer (view after)) :
    Records view (past ++ [⟨start, step, answer, after⟩]) (view after) where
  ledger := by
    rw [accepted, decided, filterMap_concat, filterMap_concat]
    exact effect.ledger records.ledger
  offered := by
    have same := State.rejection?_congr effect.numVars
    rw [accepted, filterMap_concat, filterMap_concat, List.filter_append]
    have earlier := records.offered
    simp only [← same] at earlier
    exact congr (congrArg _ earlier) effect.taken_eq
  assigned := by
    have valid := records.ledger.valid
    intro entry member l same
    rcases List.mem_append.mp member with old | new
    · have before := records.assigned entry old l same
      cases answered : entry.answer with
      | true =>
          rw [answered] at before
          exact effect.extends_model valid l before
      | false =>
          rw [answered] at before
          exact (effect.extends_model valid).fails before
    · rw [List.mem_singleton.mp new] at same ⊢
      change step = .assign l at same
      rw [same] at effect
      exact effect.truth_assigned
  failed := by
    intro entry member failed
    rcases List.mem_append.mp member with old | new
    · exact effect.conflicted records.ledger.valid (records.failed entry old failed)
    · rw [List.mem_singleton.mp new] at failed
      exact effect.conflicted_of_failed failed.1 failed.2

end

end UnitPropagation
