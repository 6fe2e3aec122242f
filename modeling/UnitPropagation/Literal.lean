import UnitPropagation.Fault

namespace UnitPropagation

/-! Variables and literals.

Variables are numbered from zero.  A literal has two numberings.  Its code puts the
negative literal of a variable right before the positive one and is the order in
which clauses list their literals.  Its signed number counts variables from one and
lets the sign tell the two literals apart, which leaves zero free as an end mark. -/

def variableName (x : Nat) : String := "x" ++ toString x

/-- A variable with a sign. -/
structure Literal where
  var : Nat
  positive : Bool
deriving DecidableEq, Repr

namespace Literal

/-- The literal that holds exactly when `l` fails. -/
def negate (l : Literal) : Literal := { l with positive := !l.positive }

def code (l : Literal) : Nat := 2 * l.var + l.positive.toNat

def ofCode (code : Nat) : Literal := ⟨code / 2, code % 2 == 1⟩

/-- The signed number of a literal; see `hasNumber` for the range of a written one. -/
def number (l : Literal) : Int :=
  if l.positive then (l.var : Int) + 1 else -((l.var : Int) + 1)

/-- Whether the signed number of `l` stays within `maxNumber`. -/
def hasNumber (l : Literal) : Bool := decide (l.var < maxNumber)

def writtenNumber (l : Literal) : Except Fault Int :=
  if l.hasNumber then .ok l.number else .error (.unnumbered l.var)

/-- The literal with a given signed number; zero is the number of none. -/
def ofNumber? (number : Int) : Option Literal :=
  if number = 0 then none else some ⟨number.natAbs - 1, decide (0 < number)⟩

def text (l : Literal) : String :=
  (if l.positive then "" else "¬") ++ variableName l.var

instance : LE Literal := ⟨fun left right => left.code ≤ right.code⟩

instance (left right : Literal) : Decidable (left ≤ right) :=
  inferInstanceAs (Decidable (left.code ≤ right.code))

/-- Puts `l` before the first literal of an ascending list that is not below it. -/
def insert (l : Literal) : List Literal → List Literal
  | [] => [l]
  | head :: rest => if l ≤ head then l :: head :: rest else head :: insert l rest

/-- The same literals in ascending order, repetitions kept. -/
def sort (literals : List Literal) : List Literal := literals.foldr insert []

@[simp] theorem negate_negate (l : Literal) : l.negate.negate = l := by
  simp [negate]

@[simp] theorem ofCode_code (l : Literal) : ofCode l.code = l := by
  obtain ⟨var, positive⟩ := l
  cases positive
  · simp [ofCode, code]
  · have half : (2 * var + 1) / 2 = var := by omega
    simp [ofCode, code, half]

@[simp] theorem code_ofCode (code : Nat) : (ofCode code).code = code := by
  simp only [ofCode, Literal.code]
  rcases Nat.mod_two_eq_zero_or_one code with even | odd
  · simp [even]; omega
  · simp [odd]; omega

@[simp] theorem ofNumber?_number (l : Literal) : ofNumber? l.number = some l := by
  obtain ⟨var, positive⟩ := l
  cases positive
  · have nonzero : ¬ -((var : Int) + 1) = 0 := by omega
    have magnitude : (-((var : Int) + 1)).natAbs - 1 = var := by omega
    have sign : ¬ 0 < -((var : Int) + 1) := by omega
    simp only [ofNumber?, number, Bool.false_eq_true, ↓reduceIte, nonzero, magnitude, sign,
      decide_false]
  · have nonzero : ¬ (var : Int) + 1 = 0 := by omega
    have magnitude : ((var : Int) + 1).natAbs - 1 = var := by omega
    have sign : 0 < (var : Int) + 1 := by omega
    simp only [ofNumber?, number, ↓reduceIte, nonzero, magnitude, sign, decide_true]

end Literal

end UnitPropagation
