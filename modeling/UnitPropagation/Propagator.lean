import UnitPropagation.Propagator.FullScan
import UnitPropagation.Propagator.Watched
import UnitPropagation.Text.Name

namespace UnitPropagation

/-! The choice between the two ways of propagating. -/

inductive PropagatorKind where
  | fullScan
  | watchedLiterals
deriving DecidableEq, Repr

namespace PropagatorKind

def all : List PropagatorKind := [.fullScan, .watchedLiterals]

def standard : PropagatorKind := .fullScan

def name : PropagatorKind → String
  | .fullScan => "full-scan"
  | .watchedLiterals => "watched-literals"

def ofName (text : String) (ignoreCase : Bool) : Except Text.UnknownName PropagatorKind :=
  Text.chooseNamed name all ignoreCase text

end PropagatorKind

/-- A propagator with what it remembers between its runs. -/
inductive Propagator where
  | fullScan
  | watchedLiterals (watched : Watched)
deriving DecidableEq, Repr

namespace Propagator

/-- A propagator for states over `count` variables that has seen nothing yet. -/
def create : PropagatorKind → Nat → Propagator
  | .fullScan, _ => .fullScan
  | .watchedLiterals, count => .watchedLiterals (.forVariables count)

def kind : Propagator → PropagatorKind
  | .fullScan => .fullScan
  | .watchedLiterals _ => .watchedLiterals

/-- The watch table of a propagator that keeps one. -/
def table? : Propagator → Option WatchTable
  | .fullScan => none
  | .watchedLiterals watched => some watched.table

end Propagator

end UnitPropagation
