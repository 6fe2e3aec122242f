import UnitPropagation.Clause

namespace UnitPropagation

/-! The journal: what happened, as events, and how an event is worded.

Events hold what they are about.  Importance, topic and wording are decided in
`Event.record` and nowhere else. -/

/-- Importance of a record, from the most to the least important. -/
inductive Level where
  | error
  | warn
  | info
  | debug
  | trace
deriving DecidableEq, Repr

namespace Level

def rank : Level → Nat
  | .error => 1
  | .warn => 2
  | .info => 3
  | .debug => 4
  | .trace => 5

def text : Level → String
  | .error => "ERROR"
  | .warn => "WARN"
  | .info => "INFO"
  | .debug => "DEBUG"
  | .trace => "TRACE"

end Level

/-- An event put into words. -/
structure Record where
  level : Level
  target : String
  message : String
deriving DecidableEq, Repr

def Record.text (record : Record) : String :=
  record.level.text ++ " " ++ record.target ++ ": " ++ record.message

inductive Event where
  /-- An empty clause was offered. -/
  | rejectedEmpty
  /-- A clause was offered whose literal `l` is none of `numVars` variables. -/
  | rejectedOutside (clause : Clause) (l : Literal) (numVars : Nat)
  | added (id : Nat) (clause : Clause)
  /-- Some clauses were rejected while a list of clauses was loaded. -/
  | skipped (count : Nat)
  | refused (l : Literal)
  | assigned (l : Literal)
  | forced (id : Nat) (l : Literal)
  | conflict (id : Nat) (clause : Clause)
  | conflictPersists (id : Nat)
  | fixpoint (numAssigned numVars : Nat)
  /-- A propagator of the named kind ended. -/
  | propagated (kind : String) (success : Bool) (numAssigned numVars : Nat)
  | rebased (clauses reduced units : Nat)
  | parsed (clauses numVars : Nat)
  | assumptionRefused (l : Literal)
  /-- A file was passed over because it does not look like a formula. -/
  | fileSkipped (path : String)
  | failed (reason : String)
deriving DecidableEq, Repr

def Event.record : Event → Record
  | .rejectedEmpty => ⟨.debug, "clause_db", "Rejected empty clause."⟩
  | .rejectedOutside clause l numVars =>
      ⟨.warn, "clause_db", "Rejected clause " ++ clause.text ++ ": " ++ l.text ++
        " is outside of " ++ toString numVars ++ " variables."⟩
  | .added id clause => ⟨.trace, "clause_db", "Added " ++ clauseName id ++ ": " ++ clause.text⟩
  | .skipped count =>
      ⟨.info, "clause_db", "Skipped " ++ toString count ++ " clauses while loading."⟩
  | .refused l => ⟨.debug, "valuation", "Refused " ++ l.text ++ ": already falsified."⟩
  | .assigned l => ⟨.trace, "valuation", "Assigned " ++ l.text ++ "."⟩
  | .forced id l =>
      ⟨.trace, "propagation", clauseName id ++ " forces " ++ l.text ++ "."⟩
  | .conflict id clause =>
      ⟨.debug, "propagation", "Conflict in " ++ clauseName id ++ ": " ++ clause.text⟩
  | .conflictPersists id =>
      ⟨.debug, "propagation", "Conflict in " ++ clauseName id ++ " persists."⟩
  | .fixpoint numAssigned numVars =>
      ⟨.trace, "propagation", "Fixpoint with " ++ toString numAssigned ++ " of " ++
        toString numVars ++ " variables assigned."⟩
  | .propagated kind success numAssigned numVars =>
      ⟨.debug, "propagation", "Propagation (" ++ kind ++ ") " ++
        (if success then "reached a fixpoint" else "found a conflict") ++ " with " ++
        toString numAssigned ++ "/" ++ toString numVars ++ " variables assigned."⟩
  | .rebased clauses reduced units =>
      ⟨.debug, "rebase", "Rebased " ++ toString clauses ++ " clauses into " ++
        toString reduced ++ " reduced and " ++ toString units ++ " unit clauses."⟩
  | .parsed clauses numVars =>
      ⟨.debug, "dimacs", "Parsed " ++ toString clauses ++ " clauses over " ++
        toString numVars ++ " variables."⟩
  | .assumptionRefused l =>
      ⟨.info, "sat_propagator::command_line::cli",
        "Assumption " ++ l.text ++ " contradicts the model."⟩
  | .fileSkipped path =>
      ⟨.info, "sat_propagator::command_line::cli", "Skipping non-CNF file: " ++ path⟩
  | .failed reason => ⟨.error, "sat_propagator", reason⟩

end UnitPropagation
