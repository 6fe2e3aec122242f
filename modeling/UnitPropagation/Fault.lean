namespace UnitPropagation

/-! Faults: uses of a value that its contents do not allow.

A fault is not an answer.  It says that a caller asked for an entry that is not
there, or for a value too large to be represented, and the work that met it stops
at that point with everything done before still in place. -/

/-- Largest number of variables an assignment can have, which is 2 ^ 31. -/
def maxVariables : Nat := 2147483648

/-- Largest magnitude of a literal's signed number, which is 2 ^ 31 - 1. -/
def maxNumber : Nat := 2147483647

inductive Fault where
  /-- Entry `index` was asked of a value with `size` entries. -/
  | outOfBounds (size index : Nat)
  /-- An assignment over more than `maxVariables` variables was asked for. -/
  | tooManyVariables (count : Nat)
  /-- The number of a literal over `var` lies beyond `maxNumber`. -/
  | unnumbered (var : Nat)
  /-- A loop used up the bound on its rounds; the bounds of this library are never used up. -/
  | unfinished
deriving DecidableEq, Repr

def Fault.message : Fault → String
  | .outOfBounds size index =>
      "index out of bounds: the len is " ++ toString size ++ " but the index is " ++ toString index
  | .tooManyVariables count =>
      toString count ++ " variables exceed the limit of " ++ toString maxVariables
  | .unnumbered var => "variable x" ++ toString var ++ " has no DIMACS representation"
  | .unfinished => "propagation did not finish"

end UnitPropagation
