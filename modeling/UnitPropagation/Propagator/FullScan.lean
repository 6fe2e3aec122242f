import UnitPropagation.Session

namespace UnitPropagation.FullScan

/-! Propagation by scanning every clause, again and again until a scan forces nothing. -/

/-- How a scan over the clauses ended. -/
inductive Scan where
  | quiet
  | active
  | conflict
deriving DecidableEq, Repr

/-- Evaluates the clauses `ids` in turn and forces the literal of each unit clause. -/
def scan : List Nat → Scan → Work Session Scan
  | [], soFar => return soFar
  | id :: rest, soFar => do
      let clause ← Session.visitClause id
      match clause.status (← get).state.model with
      | .satisfied => scan rest soFar
      | .undecided => scan rest soFar
      | .conflicting =>
          Session.reportConflict id clause
          return .conflict
      | .unit l =>
          if ← Session.force l id clause then scan rest .active else return .conflict

/-- Scans until nothing is forced.  A scan looks at the clauses that are there when it
starts; the unit clauses that it adds itself are for the next one. -/
def scanRounds : Nat → Work Session Bool
  | 0 => throw .unfinished
  | rounds + 1 => do
      Session.change (·.countPass)
      match ← scan ((← get).state.clauses.idsFrom 0) .quiet with
      | .quiet => return true
      | .active => scanRounds rounds
      | .conflict => return false

/-- Propagates until nothing is forced, or until a clause is found in which every literal
is false; only the former succeeds.  Each scan but the last assigns a variable, which
bounds their number. -/
def propagate : Work Session Bool := do
  scanRounds ((← get).state.numVars + 1)

end UnitPropagation.FullScan
