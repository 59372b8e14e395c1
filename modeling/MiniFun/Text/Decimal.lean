import MiniFun.Text.Digit

/-! # Decimal numerals of bounded length

Integers are unbounded, and their decimal numerals are not: a numeral of more than
`numeralLimit` digits is neither read nor written. Arithmetic is free of the limit, which only
shows where an integer meets its text.
-/

namespace MiniFun.Text

/-- The most digits that a numeral may have, its sign not counted. -/
def numeralLimit : Nat := 4300

/-- The least natural number that is too long to be written. -/
def unwritable : Nat := Nat.pow 10 numeralLimit

/-- The natural number that a row of digits denotes; `none` if the row is too long. Zeros in front
count as digits. -/
def readNumeral? (digits : List Char) : Option Nat :=
  if digits.length ≤ numeralLimit then some (digitsValue digits) else none

/-- The decimal numeral of an integer, with a sign only if it is negative. -/
def decimal (n : Int) : String :=
  let digits := Nat.toDigits 10 n.natAbs
  String.ofList (if n < 0 then '-' :: digits else digits)

/-- The decimal numeral of an integer; `none` if it is too long. -/
def writeNumeral? (n : Int) : Option String :=
  if n.natAbs < unwritable then some (decimal n) else none

end MiniFun.Text
