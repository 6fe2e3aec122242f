import UnitPropagation.CommandLine.Options
import UnitPropagation.Dimacs.Formula
import UnitPropagation.Solver
import UnitPropagation.Text.Terminal

namespace UnitPropagation.CommandLine

/-! What is shown of a run: the statistics and the verdict. -/

/-- Whether a formula was propagated to the end. -/
inductive Outcome where
  | propagated
  | conflict
deriving DecidableEq, Repr

def Outcome.text : Outcome → String
  | .propagated => "PROPAGATED"
  | .conflict => "CONFLICT"

def padRight (width : Nat) (text : String) : String :=
  text ++ String.ofList (List.replicate (width - text.length) ' ')

def padLeft (width : Nat) (text : String) : String :=
  String.ofList (List.replicate (width - text.length) ' ') ++ text

/-- A line of a table, with its label filled up to a width. -/
def tableLine (width : Nat) (label value : String) : String :=
  "|  " ++ padRight width label ++ " " ++ value ++ "  |\n"

/-- A line with a number that stands in a wide column. -/
def wideLine (label : String) (value : Nat) : String :=
  tableLine 28 label (padLeft 18 (toString value))

/-- A line with a number that stands in a narrow column. -/
def narrowLine (label : String) (value : Nat) : String :=
  tableLine 20 label (padLeft 12 (toString value))

def statistics (formula : Formula) (solver : Solver) (numAssumptions : Nat) : String :=
  let state := solver.state
  let counters := state.counters
  String.join [
    "\n=======================[ Problem Statistics ]=========================\n",
    wideLine "Variables" formula.numVars,
    wideLine "Clauses (input)" formula.numClauses,
    wideLine "Literals (input)" formula.numLiterals,
    wideLine "Clauses (database)" state.clauses.size,
    "======================[ Propagation Statistics ]=====================\n",
    tableLine 28 "Propagator" solver.propagator.kind.name,
    wideLine "Assumptions" numAssumptions,
    wideLine "Assigned variables" state.trail.size,
    wideLine "Passes" counters.passes,
    narrowLine "Clause visits" counters.visits,
    narrowLine "Propagations" counters.propagations,
    wideLine "Conflicts" counters.conflicts,
    "=====================================================================\n"]

/-- The suggested decision, or that there is none to make. -/
def suggestion (kind : BranchingKind) : Option Nat → String
  | some x => "Next decision (" ++ kind.name ++ "): " ++ variableName x ++ "\n"
  | none => "Every variable is assigned\n"

/-- A record as a line of the log.  Further lines of a message are indented, and nothing in
it controls the terminal. -/
def logLine (record : Record) : String :=
  let message := String.intercalate "\n    "
    ((record.message.toList.splitOnP (· = '\n')).map String.ofList)
  let line := "[" ++ padRight 5 record.level.text ++ " " ++ record.target ++ "] " ++ message ++ "\n"
  String.ofList (Text.stripControls line.toList)

def Options.shows (options : Options) (level : Level) : Bool :=
  decide (level.rank ≤ (if options.debug then Level.debug else Level.warn).rank)

end UnitPropagation.CommandLine
