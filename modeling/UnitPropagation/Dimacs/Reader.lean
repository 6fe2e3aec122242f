import UnitPropagation.Dimacs.Formula
import UnitPropagation.Text.Blank
import UnitPropagation.Text.Lines
import UnitPropagation.Text.Numeral

namespace UnitPropagation.Dimacs

/-! Reading formulas.

A text with a header, `p cnf <variables> <clauses>`, has exactly the declared number of
clause lines after it; lines that start with `c` are comments and do not count, and
whatever follows the last clause is not looked at.  A text without a header has a clause
on each line that is not blank, a comment or a header, and as many variables as it
mentions.  In both, a clause is a list of signed numbers that a zero may end. -/

/-- A line with its number, counted from one; `none` if its bytes are not UTF-8. -/
abbrev Line := Nat × Option (List Char)

structure Header where
  numVars : Nat
  numClauses : Nat
deriving DecidableEq, Repr

/-- Reads a header line: four fields, of which the last two are numbers. -/
def readHeader (line : List Char) : Except LoadError Header :=
  match Text.fields line with
  | [_, _, numVars, numClauses] =>
      match Text.word64? numVars, Text.word64? numClauses with
      | some numVars, some numClauses =>
          if numVars ≤ maxNumber then .ok ⟨numVars, numClauses⟩
          else .error (.invalidHeader (String.ofList line))
      | _, _ => .error (.invalidHeader (String.ofList line))
  | _ => .error (.invalidHeader (String.ofList line))

/-- Skips to the first line that starts with `p` and reads it as the header; gives it with
the lines that follow. -/
def findHeader : List Line → Except LoadError (Header × List Line)
  | [] => .error .missingHeader
  | (_, none) :: _ => .error (.unreadable .notText)
  | (_, some line) :: rest =>
      if line.head? = some 'p' then (readHeader line).map (·, rest) else findHeader rest

/-- The signed number of a literal, or zero. -/
def literalNumber? (token : List Char) : Option Int :=
  (Text.int32? token).filter (·.natAbs ≤ maxNumber)

/-- Reads the literals of a clause, over variables below `numVars`, up to a zero. -/
def readLiterals (lineNumber numVars : Nat) : List (List Char) → Except LoadError (List Literal)
  | [] => .ok []
  | token :: rest =>
      match literalNumber? token with
      | none => .error (.invalidLiteral lineNumber (String.ofList token))
      | some number =>
          match Literal.ofNumber? number with
          | none => .ok []
          | some l =>
              if l.var < numVars then (readLiterals lineNumber numVars rest).map (l :: ·)
              else .error (.variableOutOfRange lineNumber number numVars)

def readClause (lineNumber numVars : Nat) (line : List Char) : Except LoadError (List Literal) :=
  readLiterals lineNumber numVars (Text.fields line)

def isComment (line : List Char) : Bool := line.head? == some 'c'

/-- Reads as many clause lines as are missing; `read` are those read before, last first. -/
def readClauses (header : Header) :
    Nat → List (List Literal) → List Line → Except LoadError (List (List Literal))
  | 0, read, _ => .ok read.reverse
  | _ + 1, read, [] => .error (.notEnoughClauses header.numClauses read.length)
  | _ + 1, _, (_, none) :: _ => .error (.unreadable .notText)
  | missing + 1, read, (lineNumber, some line) :: rest =>
      if isComment line then readClauses header (missing + 1) read rest
      else
        match readClause lineNumber header.numVars line with
        | .ok literals => readClauses header missing (literals :: read) rest
        | .error reason => .error reason

/-- Reads a formula from the lines of a text with a header. -/
def readLines (lines : List Line) : Except LoadError Formula := do
  let (header, rest) ← findHeader lines
  if maxClauses < header.numClauses then
    throw (.tooManyClauses header.numClauses)
  let clauses ← readClauses header header.numClauses [] rest
  return ⟨header.numVars, clauses⟩

/-- Reads a formula from a text with a header. -/
def read (bytes : List UInt8) : Except LoadError Formula :=
  readLines (Text.numbered ((Text.byteLines bytes).map Text.decode?))

/-- Reads a formula from the content of a file, if it has any. -/
def readContent : Except FileError (List UInt8) → Except LoadError Formula
  | .ok content => read content
  | .error cause => .error (.unreadable cause)

/-- Whether a line of a text without a header holds a clause. -/
def holdsClause (line : List Char) : Bool :=
  !(line.all Text.isBlank || isComment line || line.head? == some 'p')

/-- Reads a formula from a text without a header. -/
def readText (text : List Char) : Except LoadError Formula := do
  let clauseLines := (Text.numbered (Text.lines text)).filter fun (_, line) => holdsClause line
  let clauses ← clauseLines.mapM fun (lineNumber, line) => readClause lineNumber maxNumber line
  let numVars := variableBound clauses.flatten
  if maxTextVariables < numVars then
    throw (.tooManyVariables numVars)
  return ⟨numVars, clauses⟩

end UnitPropagation.Dimacs
