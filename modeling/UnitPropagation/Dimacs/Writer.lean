import UnitPropagation.Clause
import UnitPropagation.Dimacs.Formula
import UnitPropagation.Text.Numeral

namespace UnitPropagation.Dimacs

/-! Writing clauses as a text with a header. -/

/-- The signed numbers of the literals, each followed by a blank, and a final zero. -/
def clauseLine (literals : List Literal) : List Char :=
  literals.flatMap (fun l => Text.integerText l.number ++ [' ']) ++ ['0', '\n']

/-- The header line, which declares the variables up to the largest one that occurs. -/
def headerLine (clauses : List (List Literal)) : List Char :=
  "p cnf ".toList ++ Nat.toDigits 10 (variableBound clauses.flatten) ++ [' '] ++
    Nat.toDigits 10 clauses.length ++ ['\n']

/-- A header line and a line for each clause. -/
def render (clauses : List (List Literal)) : List Char :=
  headerLine clauses ++ clauses.flatMap clauseLine

/-- The text of clauses whose literals all have a number. -/
def write (clauses : List Clause) : Except Fault String :=
  let literals := clauses.map Clause.literals
  match literals.flatten.find? (!·.hasNumber) with
  | some l => .error (.unnumbered l.var)
  | none => .ok (String.ofList (render literals))

end UnitPropagation.Dimacs
