import Formula.Decimal.Shortest

/-! Written forms of doubles: shortest, fixed places, scientific and general notation. -/

namespace Formula.Decimal

/-- A whole number of units of a decimal place, written with that many places. -/
def writeFixed (places units : Nat) : String :=
  let fraction := Nat.toDigits 10 (units % 10 ^ places)
  toString (units / 10 ^ places) ++ "."
    ++ String.ofList (List.replicate (places - fraction.length) '0' ++ fraction)

/-- An exponent has a sign and at least two digits. -/
def writeExponent (exponent : Int) : String :=
  let digits := toString exponent.natAbs
  (if exponent < 0 then "e-" else "e+") ++ (if digits.length < 2 then "0" else "") ++ digits

/-- One digit, a point before any further digits, and the exponent of the first digit. -/
def writeScientific (d : Decimal) : String :=
  let places := digitCount d.coefficient - 1
  (if places = 0 then toString d.coefficient else writeFixed places d.coefficient)
    ++ writeExponent d.leadingExponent

/-- Positional notation always shows a point with a digit on either side. -/
def writePositional (d : Decimal) : String :=
  if d.exponent < 0 then writeFixed d.exponent.natAbs d.coefficient
  else writeFixed 1 (d.coefficient * 10 ^ (d.exponent.toNat + 1))

/-- Numbers from a ten-thousandth up to ten to the sixteenth are written positionally. -/
def write (d : Decimal) : String :=
  if d.coefficient = 0 then "0.0"
  else if -4 ≤ d.leadingExponent ∧ d.leadingExponent < 16 then d.writePositional
  else d.writeScientific

/-- The sign stands before the magnitude, the infinities have a name, and the undefined has none. -/
def writeSigned (plus : String) (written : Decimal → String) (undefinedName : String)
    (x : Float) : String :=
  if x.isNaN then undefinedName
  else (if Double.isNegative x then "-" else plus)
    ++ (if x.isFinite then written (magnitude x) else "inf")

/-- The shortest text that reads back as the double. -/
def text (x : Float) : String :=
  writeSigned "" (fun _ => (shortest x).write) "nan" x

/-- Scientific notation with a fixed number of decimal places. -/
def scientific (places : Nat) (d : Decimal) : String :=
  if d.coefficient = 0 then writeFixed places 0 ++ writeExponent 0
  else (d.toDigitCount (places + 1)).writeScientific

/-- A double in scientific notation with a fixed number of decimal places. -/
def scientificText (places : Nat) (x : Float) : String :=
  writeSigned "" (scientific places) "nan" x

/-- Six digits at most, without zeros at the end, and scientific outside positional reach. -/
def general (d : Decimal) : String :=
  if d.coefficient = 0 then "0"
  else
    let rounded := (d.toDigitCount 6).trimZeros
    if -4 ≤ rounded.leadingExponent ∧ rounded.leadingExponent < 6 then
      if rounded.exponent < 0 then writeFixed rounded.exponent.natAbs rounded.coefficient
      else toString (rounded.coefficient * 10 ^ rounded.exponent.toNat)
    else rounded.writeScientific

/-- A double in general notation. -/
def generalText (x : Float) : String :=
  writeSigned "" general "nan" x

end Formula.Decimal
