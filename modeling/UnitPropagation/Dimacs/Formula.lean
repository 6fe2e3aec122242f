import UnitPropagation.FileError
import UnitPropagation.Literal

namespace UnitPropagation

/-! Formulas as they are read, and the reasons why reading fails. -/

/-- Clauses as lists of literals in the order they were written in. -/
structure Formula where
  numVars : Nat
  clauses : List (List Literal)
deriving DecidableEq, Repr

namespace Formula

def numClauses (formula : Formula) : Nat := formula.clauses.length

def numLiterals (formula : Formula) : Nat := formula.clauses.flatten.length

end Formula

/-- One more than the largest variable among literals; zero without literals. -/
def variableBound (literals : List Literal) : Nat :=
  literals.foldr (fun l bound => max (l.var + 1) bound) 0

namespace Dimacs

/-- Largest number of variables of a text without a header, which does not declare them:
2 ^ 24. -/
def maxTextVariables : Nat := 16777216

/-- Largest number of clauses that a header may declare: the lists are set aside together,
24 bytes each, in less than 2 ^ 63 bytes. -/
def maxClauses : Nat := 0x7fffffffffffffff / 24

inductive LoadError where
  | unreadable (cause : FileError)
  | missingHeader
  | invalidHeader (line : String)
  /-- The header declares more than `maxClauses` clauses. -/
  | tooManyClauses (count : Nat)
  | notEnoughClauses (expected found : Nat)
  | invalidLiteral (line : Nat) (token : String)
  | variableOutOfRange (line : Nat) (literal : Int) (numVars : Nat)
  | tooManyVariables (numVars : Nat)
deriving DecidableEq, Repr

def LoadError.message : LoadError → String
  | .unreadable cause => "failed to read DIMACS input: " ++ cause.message
  | .missingHeader => "no `p cnf <variables> <clauses>` header found"
  | .invalidHeader line => "invalid header line `" ++ line ++ "`"
  | .tooManyClauses _ => "capacity overflow"
  | .notEnoughClauses expected found =>
      "expected " ++ toString expected ++ " clause lines but found only " ++ toString found
  | .invalidLiteral line token =>
      "line " ++ toString line ++ ": `" ++ token ++ "` is not a literal"
  | .variableOutOfRange line literal numVars =>
      "line " ++ toString line ++ ": literal " ++ toString literal ++
        " exceeds the declared " ++ toString numVars ++ " variables"
  | .tooManyVariables numVars =>
      toString numVars ++ " variables exceed the limit of " ++ toString maxTextVariables

end Dimacs

end UnitPropagation
