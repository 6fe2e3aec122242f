import UnitPropagation.Clause

namespace UnitPropagation

/-! The clause database.

Clauses are numbered in the order in which they arrive, and a number stays valid:
clauses are never removed, and only their slots change. -/

structure Database where
  clauses : Array Clause
deriving DecidableEq, Repr

namespace Database

def empty : Database := ⟨#[]⟩

def size (database : Database) : Nat := database.clauses.size

def isEmpty (database : Database) : Bool := database.clauses.isEmpty

/-- Adds a clause; its number is the size before. -/
def push (database : Database) (clause : Clause) : Database :=
  ⟨database.clauses.push clause⟩

def get? (database : Database) (id : Nat) : Option Clause := database.clauses[id]?

def toList (database : Database) : List Clause := database.clauses.toList

/-- The numbers from `start` on, in ascending order. -/
def idsFrom (database : Database) (start : Nat) : List Nat :=
  List.range' start (database.size - start)

def entries (database : Database) : List (Nat × Clause) :=
  database.toList.zipIdx.map Prod.swap

/-- Points a slot of a clause at one of its positions; any other position, or the
number of no clause, changes nothing. -/
def watchPosition (database : Database) (id : Nat) (slot : Slot) (position : Nat) : Database :=
  ⟨database.clauses.modify id fun clause =>
    (clause.watchPosition? slot position).getD clause⟩

def clauseAt (database : Database) (id : Nat) : Except Fault Clause :=
  match database.get? id with
  | some clause => .ok clause
  | none => .error (.outOfBounds database.size id)

/-- Points a slot of a clause at the first occurrence of a literal, and says whether
there is one; `none` if there is no such clause. -/
def watchLiteral (database : Database) (id : Nat) (slot : Slot) (l : Literal) :
    Option Bool × Database :=
  match database.get? id with
  | none => (none, database)
  | some clause =>
      match clause.watchLiteral? slot l with
      | none => (some false, database)
      | some changed => (some true, ⟨database.clauses.setIfInBounds id changed⟩)

end Database

end UnitPropagation
