namespace UnitPropagation.Text

/-! Decimal numerals with a sign and a range. -/

/-- The number that a non-empty run of digits stands for. -/
def digits? (text : List Char) : Option Nat :=
  if text.isEmpty || !text.all Char.isDigit then none else some (Nat.ofDigitChars 10 text 0)

/-- Reads digits after an optional plus sign. -/
def natural? : List Char → Option Nat
  | '+' :: digits => digits? digits
  | digits => digits? digits

/-- Reads digits after an optional plus or minus sign. -/
def integer? : List Char → Option Int
  | '-' :: digits => (digits? digits).map fun magnitude => -(magnitude : Int)
  | text => (natural? text).map Int.ofNat

/-- Reads a number below 2 ^ 64. -/
def word64? (text : List Char) : Option Nat :=
  (natural? text).filter (· < UInt64.size)

/-- Reads a number from -2 ^ 31 to 2 ^ 31 - 1. -/
def int32? (text : List Char) : Option Int :=
  (integer? text).filter fun value => -2147483648 ≤ value && value ≤ 2147483647

/-- The decimal digits of a number, after a minus sign if it is negative. -/
def integerText (value : Int) : List Char :=
  if value < 0 then '-' :: Nat.toDigits 10 value.natAbs else Nat.toDigits 10 value.natAbs

end UnitPropagation.Text
