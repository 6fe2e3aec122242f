import UnitPropagation.Literal

namespace UnitPropagation

/-! Partial assignments.

An assignment gives each of its variables a truth value, and the middle one stands
for a variable that is still open.  Reading is total: a variable beyond the end is
open.  The functions whose name ends in `At` meet a fault there. -/

/-- A truth value, in ascending order. -/
inductive Truth where
  | fails
  | unknown
  | holds
deriving DecidableEq, Repr, Inhabited

namespace Truth

def isAssigned (truth : Truth) : Bool := truth != .unknown

def ofBool (value : Bool) : Truth := if value then .holds else .fails

def toBool? : Truth → Option Bool
  | .fails => some false
  | .unknown => none
  | .holds => some true

def negate : Truth → Truth
  | .fails => .holds
  | .unknown => .unknown
  | .holds => .fails

def rank : Truth → Nat
  | .fails => 0
  | .unknown => 1
  | .holds => 2

instance : Ord Truth := ⟨fun left right => compare left.rank right.rank⟩

end Truth

structure Assignment where
  values : Array Truth
deriving DecidableEq, Repr

namespace Assignment

/-- Every one of `count` variables open. -/
def blank (count : Nat) : Assignment := ⟨Array.replicate count .unknown⟩

/-- The blank assignment, unless it would have more than `maxVariables` variables. -/
def create (count : Nat) : Except Fault Assignment :=
  if count ≤ maxVariables then .ok (blank count) else .error (.tooManyVariables count)

def size (model : Assignment) : Nat := model.values.size

def value (model : Assignment) (x : Nat) : Truth := model.values.getD x .unknown

def truth (model : Assignment) (l : Literal) : Truth :=
  if l.positive then model.value l.var else (model.value l.var).negate

/-- Gives a variable of the assignment a value, whatever it had before. -/
def put (model : Assignment) (x : Nat) (value : Truth) : Assignment :=
  ⟨model.values.setIfInBounds x value⟩

/-- Makes a literal true, whatever value its variable had before. -/
def set (model : Assignment) (l : Literal) : Assignment :=
  model.put l.var (.ofBool l.positive)

/-- What `choose` gives for the numbers below a bound, in ascending order, before `found`. -/
def collectBelow {α : Type} (choose : Nat → Option α) : Nat → List α → List α
  | 0, found => found
  | x + 1, found => collectBelow choose x ((choose x).toList ++ found)

theorem collectBelow_eq {α : Type} (choose : Nat → Option α) (bound : Nat) (found : List α) :
    collectBelow choose bound found = (List.range bound).filterMap choose ++ found := by
  induction bound generalizing found with
  | zero => rfl
  | succ x ih =>
      rw [collectBelow, ih, List.range_succ, List.filterMap_append]
      cases chosen : choose x <;> simp [chosen]

/-- All variables with their values, in ascending order. -/
def entries (model : Assignment) : List (Nat × Truth) :=
  collectBelow (fun x => some (x, model.value x)) model.size []

/-- The literals that the assignment makes true, in ascending order. -/
def literals (model : Assignment) : List Literal :=
  collectBelow (fun x => (model.value x).toBool?.map (⟨x, ·⟩)) model.size []

def openVariables (model : Assignment) : List Nat :=
  collectBelow (fun x => if model.value x = .unknown then some x else none) model.size []

def numAssigned (model : Assignment) : Nat := model.values.countP Truth.isAssigned

def numOpen (model : Assignment) : Nat := model.size - model.numAssigned

def requireVariable (model : Assignment) (x : Nat) : Except Fault Unit :=
  if x < model.size then .ok () else .error (.outOfBounds model.size x)

def valueAt (model : Assignment) (x : Nat) : Except Fault Truth :=
  (model.requireVariable x).map fun _ => model.value x

def truthAt (model : Assignment) (l : Literal) : Except Fault Truth :=
  (model.requireVariable l.var).map fun _ => model.truth l

def setAt (model : Assignment) (l : Literal) : Except Fault Assignment :=
  (model.requireVariable l.var).map fun _ => model.set l

def clearAt (model : Assignment) (x : Nat) : Except Fault Assignment :=
  (model.requireVariable x).map fun _ => model.put x .unknown

/-- One letter per variable. -/
def text (model : Assignment) : String :=
  String.ofList (model.values.toList.map fun
    | .fails => 'F'
    | .unknown => 'U'
    | .holds => 'T')

end Assignment

end UnitPropagation
