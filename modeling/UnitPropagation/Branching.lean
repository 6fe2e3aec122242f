import UnitPropagation.Assignment
import UnitPropagation.Branching.Generator
import UnitPropagation.Text.Name

namespace UnitPropagation

/-! Branching: which open variable a search would decide next. -/

inductive BranchingKind where
  | first
  | random
deriving DecidableEq, Repr

namespace BranchingKind

def all : List BranchingKind := [.first, .random]

def standard : BranchingKind := .first

def name : BranchingKind → String
  | .first => "first"
  | .random => "random"

def ofName (text : String) (ignoreCase : Bool) : Except Text.UnknownName BranchingKind :=
  Text.chooseNamed name all ignoreCase text

end BranchingKind

/-- A rule for choosing, with what it remembers between choices. -/
inductive Branching where
  /-- The lowest open variable. -/
  | first
  /-- Any open variable, each equally likely. -/
  | random (generator : Generator)
deriving DecidableEq, Repr

namespace Branching

/-- Seed of a random rule for which none is given. -/
def standardSeed : Nat := 1337

def create : BranchingKind → Nat → Branching
  | .first, _ => .first
  | .random, seed => .random (.ofSeed seed)

/-- Chooses an open variable of a model that has `numOpen` of them; none if there is none.
A random rule draws nothing if `numOpen` is zero, and chooses nothing if it draws beyond the
open variables that there are. -/
def pick (branching : Branching) (model : Assignment) (numOpen : Nat) : Option Nat × Branching :=
  match branching with
  | .first => (model.openVariables.head?, .first)
  | .random generator =>
      if numOpen = 0 then (none, .random generator)
      else
        let (index, generator) := generator.below numOpen
        (model.openVariables[index]?, .random generator)

end Branching

end UnitPropagation
