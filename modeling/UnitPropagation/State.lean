import UnitPropagation.Clause.Evaluation
import UnitPropagation.Database

namespace UnitPropagation

/-! The state that propagation works on: a model, the clauses, the trail of assigned
literals in the order of their assignment, and counters.

Every function here is a plain change of the state.  `Session` decides when one is
allowed and keeps the journal. -/

structure Counters where
  passes : Nat
  visits : Nat
  propagations : Nat
  conflicts : Nat
deriving DecidableEq, Repr

structure State where
  model : Assignment
  clauses : Database
  trail : Array Literal
  counters : Counters
deriving DecidableEq, Repr

/-- Why a clause is not taken into the database. -/
inductive Rejection where
  | empty
  /-- Literal `l` is over none of the variables. -/
  | outside (l : Literal)
deriving DecidableEq, Repr

namespace State

/-- The state without clauses and assignments over the variables of a model. -/
def ofModel (model : Assignment) : State := ⟨model, .empty, #[], ⟨0, 0, 0, 0⟩⟩

def create (count : Nat) : Except Fault State := (Assignment.create count).map ofModel

def numVars (state : State) : Nat := state.model.size

def countPass (state : State) : State :=
  { state with counters.passes := state.counters.passes + 1 }

def countVisit (state : State) : State :=
  { state with counters.visits := state.counters.visits + 1 }

def countPropagation (state : State) : State :=
  { state with counters.propagations := state.counters.propagations + 1 }

def countConflict (state : State) : State :=
  { state with counters.conflicts := state.counters.conflicts + 1 }

/-- Why a clause is rejected, if it is: it is empty, or one of its literals is over no
variable of the state, of which the first is named. -/
def rejection? (state : State) (clause : Clause) : Option Rejection :=
  if clause.isEmpty then some .empty
  else (clause.literals.find? (state.numVars ≤ ·.var)).map .outside

def addClause (state : State) (clause : Clause) : State :=
  { state with clauses := state.clauses.push clause }

/-- Makes `l` true: in the model, on the trail, and as a unit clause. -/
def extend (state : State) (l : Literal) : State :=
  { state with
    model := state.model.set l
    clauses := state.clauses.push (.ofLiterals [l])
    trail := state.trail.push l }

def watchPosition (state : State) (id : Nat) (slot : Slot) (position : Nat) : State :=
  { state with clauses := state.clauses.watchPosition id slot position }

/-- Whether all variables of a clause are variables of the state. -/
def requireVariables (state : State) (clause : Clause) : Except Fault Unit :=
  clause.literals.forM fun l => state.model.requireVariable l.var

/-- The clause with a given number, all its variables being variables of the state. -/
def clauseAt (state : State) (id : Nat) : Except Fault Clause := do
  let clause ← state.clauses.clauseAt id
  state.requireVariables clause
  return clause

def status (state : State) (id : Nat) : Except Fault Status := do
  return (← state.clauseAt id).status state.model

def value (state : State) (x : Nat) : Except Fault Truth := state.model.valueAt x

def truth (state : State) (l : Literal) : Except Fault Truth := state.model.truthAt l

/-- What the model leaves of the clauses, in their order: clauses without a true literal,
less their false literals, and none that would be empty. -/
def reduced (state : State) : List Clause :=
  state.clauses.toList.filterMap fun clause => (clause.residue? state.model).map .ofLiterals

/-- The model as unit clauses, by ascending variable. -/
def units (state : State) : List Clause :=
  state.model.literals.map fun l => .ofLiterals [l]

/-- The clauses left under the model, followed by the model itself. -/
def rebased (state : State) : List Clause := state.reduced ++ state.units

end State

end UnitPropagation
