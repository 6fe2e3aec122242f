import UnitPropagation.Literal

namespace UnitPropagation

/-! Clauses with two watched positions.

A clause lists its literals in ascending order and keeps repetitions.  Beside them
it carries two slots, each a position in that list.  Only the slots ever change. -/

/-- One of the two slots of a clause. -/
inductive Slot where
  | first
  | second
deriving DecidableEq, Repr

def Slot.other : Slot → Slot
  | .first => .second
  | .second => .first

def clauseName (id : Nat) : String := "c" ++ toString id

structure Clause where
  literals : List Literal
  first : Nat
  second : Nat
deriving DecidableEq, Repr

namespace Clause

/-- The clause of the given literals.  The slots start on the first two positions, or
both on the first if there are not two. -/
def ofLiterals (literals : List Literal) : Clause :=
  ⟨Literal.sort literals, 0, if 1 < literals.length then 1 else 0⟩

def size (clause : Clause) : Nat := clause.literals.length

def isEmpty (clause : Clause) : Bool := clause.literals.isEmpty

def isUnit (clause : Clause) : Bool := clause.size == 1

def position (clause : Clause) : Slot → Nat
  | .first => clause.first
  | .second => clause.second

def watcher? (clause : Clause) (slot : Slot) : Option Literal :=
  clause.literals[clause.position slot]?

/-- The slot that watches `l`, the first one if both do. -/
def slotOf? (clause : Clause) (l : Literal) : Option Slot :=
  if clause.watcher? .first = some l then some .first
  else if clause.watcher? .second = some l then some .second
  else none

def point (clause : Clause) (slot : Slot) (position : Nat) : Clause :=
  match slot with
  | .first => { clause with first := position }
  | .second => { clause with second := position }

/-- Points a slot at a position of the clause; fails if there is no such position. -/
def watchPosition? (clause : Clause) (slot : Slot) (position : Nat) : Option Clause :=
  if position < clause.size then some (clause.point slot position) else none

/-- Points a slot at the first occurrence of a literal; fails if there is none. -/
def watchLiteral? (clause : Clause) (slot : Slot) (l : Literal) : Option Clause :=
  (clause.literals.idxOf? l).map (clause.point slot)

def literalAt (clause : Clause) (position : Nat) : Except Fault Literal :=
  match clause.literals[position]? with
  | some l => .ok l
  | none => .error (.outOfBounds clause.size position)

/-- Whether two clauses have the same literals equally often, whatever they watch. -/
def sameLiterals (left right : Clause) : Bool := left.literals == right.literals

def text (clause : Clause) : String :=
  "[" ++ String.intercalate ", " (clause.literals.map Literal.text) ++ "]"

end Clause

end UnitPropagation
