import UnitPropagation.Propagator

namespace UnitPropagation

/-! Solvers: a session with the propagator that works on it.

A solver finds out what a partial assignment forces, and whether it is contradictory.
It does not search. -/

structure Solver where
  propagator : Propagator
  session : Session
deriving DecidableEq, Repr

namespace Solver

def create (kind : PropagatorKind) (count : Nat) : Except Fault Solver :=
  (Session.create count).map fun session => ⟨.create kind count, session⟩

def state (solver : Solver) : State := solver.session.state

/-- Work on the session is work on the solver. -/
def onSession {α : Type} (work : Work Session α) : Work Solver α
  | ⟨propagator, session⟩ =>
      match work session with
      | .ok result changed => .ok result ⟨propagator, changed⟩
      | .error fault changed => .error fault ⟨propagator, changed⟩

def add (clause : Clause) : Work Solver Bool := onSession (Session.add clause)

def assign (l : Literal) : Work Solver Bool := onSession (Session.assign l)

def rebase : Work Solver (List Clause) := onSession Session.rebase

/-- Lets the propagator run on the session. -/
def runPropagator : Work Solver Bool
  | ⟨.fullScan, session⟩ => onSession FullScan.propagate ⟨.fullScan, session⟩
  | ⟨.watchedLiterals watched, session⟩ =>
      match Watching.propagate ⟨watched, session⟩ with
      | .ok success watching => .ok success ⟨.watchedLiterals watching.watched, watching.session⟩
      | .error fault watching =>
          .error fault ⟨.watchedLiterals watching.watched, watching.session⟩

/-- Lets the propagator run and notes how it ended. -/
def propagate : Work Solver Bool := do
  let success ← runPropagator
  let solver ← get
  onSession (Session.note (.propagated solver.propagator.kind.name success
    solver.state.trail.size solver.state.numVars))
  return success

/-- Offers clauses one after another and counts those that were not taken. -/
def addAll : List (List Literal) → Nat → Work Solver Nat
  | [], rejected => return rejected
  | literals :: rest, rejected => do
      if ← add (.ofLiterals literals) then addAll rest rejected else addAll rest (rejected + 1)

/-- Offers clauses one after another and notes how many were not taken, if any. -/
def load (clauses : List (List Literal)) : Work Solver Unit := do
  let rejected ← addAll clauses 0
  if 0 < rejected then onSession (Session.note (.skipped rejected))

def ofClauses (kind : PropagatorKind) (count : Nat) (clauses : List (List Literal)) :
    Except Fault Solver := do
  match load clauses (← create kind count) with
  | .ok _ solver => return solver
  | .error fault _ => throw fault

/-- Makes literals true one after another, up to the first that is false already. -/
def assignAll : List Literal → Work Solver (Option Literal)
  | [] => return none
  | l :: rest => do
      if ← assign l then assignAll rest else return some l

/-- Makes literals true and propagates; an assumption that is false already is noted and
ends the run without success. -/
def run (assumptions : List Literal) : Work Solver Bool := do
  match ← assignAll assumptions with
  | none => propagate
  | some l =>
      onSession (Session.note (.assumptionRefused l))
      return false

end Solver

end UnitPropagation
