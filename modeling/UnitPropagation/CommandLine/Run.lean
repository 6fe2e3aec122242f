import UnitPropagation.CommandLine.Host
import UnitPropagation.CommandLine.Report
import UnitPropagation.CommandLine.Request
import UnitPropagation.Dimacs.Reader
import UnitPropagation.Dimacs.Writer

namespace UnitPropagation.CommandLine

/-! The program: from its arguments to its exit code. -/

/-- Why a run gives up. -/
inductive RunError where
  | load (reason : Dimacs.LoadError)
  | file (reason : FileError)
  /-- An assumption is not the number of a literal of the formula. -/
  | assumption (number : Int)
  | fault (fault : Fault)
deriving DecidableEq, Repr

namespace RunError

def message : RunError → String
  | .load reason => reason.message
  | .file reason => "I/O error: " ++ reason.message
  | .assumption number =>
      "assumption " ++ toString number ++ " is not a literal of the formula"
  | .fault cause => cause.message

end RunError

/-- The literal of a formula with a given number. -/
def assumptionLiteral (numVars : Nat) (number : Int) : Except RunError Literal :=
  match (Literal.ofNumber? number).filter (·.var < numVars) with
  | some l => .ok l
  | none => .error (.assumption number)

structure Run where
  solver : Solver
  numAssumptions : Nat
  outcome : Outcome
  /-- The text of what is left of the formula, if it was asked for. -/
  rebased : Option String
deriving DecidableEq, Repr

/-- Propagates a formula under assumptions given by their numbers. -/
def propagateFormula (options : Options) (formula : Formula) : Except RunError Run := do
  let assumptions ← options.assumptions.mapM (assumptionLiteral formula.numVars)
  let solver ← (Solver.ofClauses options.propagator formula.numVars formula.clauses).mapError .fault
  match Solver.run assumptions solver with
  | .error fault _ => throw (.fault fault)
  | .ok success solver =>
      let outcome := if success then .propagated else .conflict
      if options.printRebase || options.output.isSome then
        match Solver.rebase solver with
        | .error fault _ => throw (.fault fault)
        | .ok clauses solver =>
            let text ← (Dimacs.write clauses).mapError .fault
            return ⟨solver, assumptions.length, outcome, some text⟩
      else
        return ⟨solver, assumptions.length, outcome, none⟩

/-- The variable to decide next, under the rule that the options name. -/
def nextDecision (kind : BranchingKind) (seed : Nat) (model : Assignment) : Option Nat :=
  ((Branching.create kind seed).pick model model.numOpen).1

section

variable {m : Type → Type} [Monad m] (host : Host m) (options : Options)

/-- Shows an event in the log, if events of its level are shown. -/
def logEvent (event : Event) : m Unit :=
  if options.shows event.record.level then host.printError (logLine event.record) else pure ()

/-- Propagates a formula and shows what came of it. -/
def reportFormula (formula : Formula) : ExceptT RunError m Outcome := do
  let run ← (propagateFormula options formula : Except RunError Run)
  (run.solver.session.journal.toList.forM (logEvent host options) : m Unit)
  match options.suggest, run.outcome with
  | some kind, .propagated =>
      host.print (suggestion kind (nextDecision kind options.seed run.solver.state.model))
  | _, _ => pure ()
  if options.printRebase then
    host.print (run.rebased.getD "")
  match options.output with
  | none => pure ()
  | some path =>
      match ← host.write path (run.rebased.getD "") with
      | .error reason => throw (.file reason)
      | .ok () => host.print ("Rebased formula written to: " ++ path ++ "\n")
  if options.stats then
    host.print (statistics formula run.solver run.numAssumptions)
  host.print ("\n" ++ run.outcome.text ++ "\n")
  return run.outcome

def reportFile (path : String) : ExceptT RunError m Outcome := do
  match Dimacs.readContent (← host.read path) with
  | .error reason => throw (.load reason)
  | .ok formula =>
      (logEvent host options (.parsed formula.numClauses formula.numVars) : m Unit)
      host.print ("Propagating: " ++ path ++ "\n")
      reportFormula host options formula

def reportText (input : String) : ExceptT RunError m Outcome := do
  match Dimacs.readText input.toList with
  | .error reason => throw (.load reason)
  | .ok formula => reportFormula host options formula

/-- What follows the last point of a file name, unless that point starts the name. -/
def extension? (name : String) : Option String :=
  let pieces := name.toList.splitOnP (· = '.')
  if pieces.length < 2 || pieces.dropLast = [[]] then none
  else pieces.getLast?.map String.ofList

/-- No path is longer, so no directory lies deeper. -/
def maxDepth : Nat := 4096

/-- Propagates every formula below a directory, in the order of names; the outcome is a
conflict if any of them is one.  Stops at the first that gives up.  What cannot be reached,
because its path is too long, is passed over. -/
def reportDirectory : Nat → String → Outcome → ExceptT RunError m Outcome
  | 0, _, soFar => return soFar
  | depth + 1, directory, soFar => do
      let children ← host.children directory
      let sorted := children.mergeSort fun left right => !decide (right.1 < left.1)
      sorted.foldlM (fun soFar (name, isDirectory) => do
        let path := FileTree.joinPath directory name
        if isDirectory then
          reportDirectory depth path soFar
        else if !(← (host.isFile path : m Bool)) then
          return soFar
        else if extension? name = some "cnf" then
          match ← reportFile host options path with
          | .conflict => return .conflict
          | .propagated => return soFar
        else
          (logEvent host options (.fileSkipped path) : m Unit)
          return soFar) soFar

end

/-- Turns the result of a run into an exit code, and shows why it gave up if it did. -/
def conclude {m : Type → Type} [Monad m] (host : Host m) (options : Options)
    (report : ExceptT RunError m Outcome) : m Nat := do
  match ← report.run with
  | .ok .propagated => return 0
  | .ok .conflict => return 20
  | .error (.fault fault) =>
      host.printError (fault.message ++ "\n")
      return 101
  | .error (.load (.tooManyClauses count)) =>
      host.printError ((Dimacs.LoadError.tooManyClauses count).message ++ "\n")
      return 101
  | .error reason =>
      logEvent host options (.failed reason.message)
      host.printError ("Error: " ++ reason.message ++ "\n")
      return 1

def usage : String :=
  "Usage: sat-propagator [OPTIONS] [PATH] [COMMAND]\n\n" ++
  "Commands:\n  file         Propagate a CNF file in DIMACS format\n" ++
  "  text         Propagate a CNF formula given as plain text, without a header\n" ++
  "  completions  Generate shell completion scripts\n"

/-- Runs the program and gives its exit code. -/
def execute {m : Type → Type} [Monad m] (host : Host m) (arguments : List String) : m Nat := do
  match Request.ofArguments arguments with
  | .misuse =>
      host.printError usage
      return 2
  | .version =>
      host.print "sat-propagator 0.1.0\n"
      return 0
  | .help =>
      host.print usage
      return 0
  | .completions _ => return 0
  | .nothing =>
      host.printError "No command provided. Use --help for more information.\n"
      return 1
  | .file path options => conclude host options (reportFile host options path)
  | .text input options => conclude host options (reportText host options input)
  | .path path options =>
      if ← host.isDirectory path then
        conclude host options (reportDirectory host options maxDepth path .propagated)
      else
        conclude host options (reportFile host options path)

end UnitPropagation.CommandLine
