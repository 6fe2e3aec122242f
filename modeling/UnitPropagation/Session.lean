import UnitPropagation.Journal
import UnitPropagation.State
import UnitPropagation.Work

namespace UnitPropagation

/-! Sessions: a state together with the journal of what was done to it. -/

structure Session where
  state : State
  journal : Array Event
deriving DecidableEq, Repr

namespace Session

def ofState (state : State) : Session := ⟨state, #[]⟩

def create (count : Nat) : Except Fault Session := (State.create count).map ofState

def note (event : Event) : Work Session Unit :=
  modify fun session => { session with journal := session.journal.push event }

/-- Changes the state and leaves the journal alone. -/
def change (step : State → State) : Work Session Unit :=
  modify fun session => { session with state := step session.state }

/-- The answer of a query that may meet a fault. -/
def query {α : Type} (question : State → Except Fault α) : Work Session α := do
  match question (← get).state with
  | .ok answer => return answer
  | .error fault => throw fault

/-- Offers a clause and says whether it was taken. -/
def add (clause : Clause) : Work Session Bool := do
  let state := (← get).state
  match state.rejection? clause with
  | some .empty =>
      note .rejectedEmpty
      return false
  | some (.outside l) =>
      note (.rejectedOutside clause l state.numVars)
      return false
  | none =>
      note (.added state.clauses.size clause)
      change (·.addClause clause)
      return true

/-- Makes a literal true unless it is false already, and says whether it is true now.
A literal that is true already changes nothing. -/
def assign (l : Literal) : Work Session Bool := do
  match ← query (·.truth l) with
  | .fails =>
      note (.refused l)
      return false
  | .holds => return true
  | .unknown =>
      change (·.extend l)
      note (.assigned l)
      return true

/-- Makes a literal true because clause `id` forces it. -/
def imply (l : Literal) (id : Nat) : Work Session Bool := do
  if ← assign l then
    change (·.countPropagation)
    note (.forced id l)
    return true
  else
    return false

def reportConflict (id : Nat) (clause : Clause) : Work Session Unit := do
  change (·.countConflict)
  note (.conflict id clause)

/-- Makes a literal true because clause `id` forces it, or reports that clause as a
conflict, and says which. -/
def force (l : Literal) (id : Nat) (clause : Clause) : Work Session Bool := do
  if ← imply l id then
    return true
  else
    reportConflict id clause
    return false

/-- Counts a visit to clause `id` and fetches it. -/
def visitClause (id : Nat) : Work Session Clause := do
  change (·.countVisit)
  query (·.clauseAt id)

/-- The clauses left under the model, followed by the model itself. -/
def rebase : Work Session (List Clause) := do
  query fun state => state.clauses.toList.forM state.requireVariables
  let state := (← get).state
  let reduced := state.reduced
  let units := state.units
  note (.rebased state.clauses.size reduced.length units.length)
  return reduced ++ units

theorem note_apply (event : Event) (session : Session) :
    note event session = .ok () ⟨session.state, session.journal.push event⟩ := rfl

theorem change_apply (step : State → State) (session : Session) :
    change step session = .ok () ⟨step session.state, session.journal⟩ := rfl

theorem query_apply {α : Type} (question : State → Except Fault α) (session : Session) :
    query question session =
      match question session.state with
      | .ok answer => .ok answer session
      | .error fault => .error fault session := by
  simp only [query, Work.bind_apply, Work.get_apply]
  cases question session.state <;> rfl

theorem add_apply (clause : Clause) (session : Session) :
    add clause session =
      match session.state.rejection? clause with
      | some .empty => .ok false ⟨session.state, session.journal.push .rejectedEmpty⟩
      | some (.outside l) =>
          .ok false ⟨session.state,
            session.journal.push (.rejectedOutside clause l session.state.numVars)⟩
      | none =>
          .ok true ⟨session.state.addClause clause,
            session.journal.push (.added session.state.clauses.size clause)⟩ := by
  simp only [add, Work.bind_apply, Work.get_apply]
  cases session.state.rejection? clause with
  | none => rfl
  | some reason => cases reason <;> rfl

theorem assign_apply (l : Literal) (session : Session) :
    assign l session =
      match session.state.truth l with
      | .error fault => .error fault session
      | .ok .fails => .ok false ⟨session.state, session.journal.push (.refused l)⟩
      | .ok .holds => .ok true session
      | .ok .unknown =>
          .ok true ⟨session.state.extend l, session.journal.push (.assigned l)⟩ := by
  simp only [assign, Work.bind_apply, query_apply]
  cases session.state.truth l with
  | error fault => rfl
  | ok truth => cases truth <;> rfl

theorem rebase_result {session after : Session} {clauses : List Clause}
    (rebased : rebase session = .ok clauses after) :
    clauses = session.state.rebased ∧ after.state = session.state := by
  simp only [rebase, Work.bind_apply, query_apply] at rebased
  cases checked : session.state.clauses.toList.forM session.state.requireVariables with
  | error fault => simp [checked] at rebased
  | ok _ =>
      rw [checked] at rebased
      cases rebased
      exact ⟨rfl, rfl⟩

end Session

end UnitPropagation
