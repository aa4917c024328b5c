import Formula.Double

/-! Non-negative decimal numbers: the exact value of a double, rounding, and the nearest double. -/

namespace Formula

/-- A non-negative decimal number: a whole coefficient scaled by a power of ten. -/
structure Decimal where
  coefficient : Nat
  exponent : Int
  deriving DecidableEq

namespace Decimal

/-- How many decimal digits a whole number is written with. -/
def digitCount (n : Nat) : Nat :=
  (Nat.toDigits 10 n).length

/-- Every finite double has an exact decimal magnitude, because two divides ten. -/
def magnitude (x : Float) : Decimal :=
  let place := Double.exponent x
  if 0 ≤ place then ⟨Double.significand x * 2 ^ place.toNat, 0⟩
  else ⟨Double.significand x * 5 ^ (-place).toNat, place⟩

/-- The double nearest to a decimal number with a sign. -/
def toFloat (negative : Bool) (d : Decimal) : Float :=
  if d.coefficient = 0 then Double.ofPattern negative 0
  else if 400 < d.exponent then Double.ofPattern negative Double.infinityPattern
  -- Three binary places fit in a decimal one, so such a number is far below the least double.
  else if d.exponent < 0 ∧ d.coefficient.log2 + 1100 < 3 * d.exponent.natAbs then
    Double.ofPattern negative 0
  else Double.nearest negative (d.coefficient * 10 ^ d.exponent.toNat)
    (10 ^ (-d.exponent).toNat)

/-- The lowest digits of a coefficient are dropped by rounding to nearest, ties to even. -/
def dropDigits (count coefficient : Nat) : Nat :=
  -- A coefficient below two to the count is under half of ten to the count.
  if coefficient.log2 + 1 < count then 0 else nearestQuotient coefficient (10 ^ count)

/-- Rounding to a number of decimal places; a negative number rounds to tens, hundreds and so on. -/
def toPlaces (places : Int) (d : Decimal) : Decimal :=
  if -places ≤ d.exponent then d
  else ⟨dropDigits (-places - d.exponent).toNat d.coefficient, -places⟩

/-- A decimal number with exactly so many digits, the first of them not zero unless all are. -/
def toDigitCount (count : Nat) (d : Decimal) : Decimal :=
  let present := digitCount d.coefficient
  if present ≤ count then ⟨d.coefficient * 10 ^ (count - present), d.exponent - (count - present)⟩
  else
    let rounded := dropDigits (present - count) d.coefficient
    -- Rounding up a row of nines gains a digit, and that digit ends in zeros.
    if rounded < 10 ^ count then ⟨rounded, d.exponent + (present - count)⟩
    else ⟨rounded / 10, d.exponent + (present - count) + 1⟩

/-- The same number with no zero at the end of its coefficient. -/
def trimZeros (d : Decimal) : Decimal :=
  if h : d.coefficient ≠ 0 ∧ d.coefficient % 10 = 0 then
    trimZeros ⟨d.coefficient / 10, d.exponent + 1⟩
  else d
termination_by d.coefficient
decreasing_by
  -- A positive number shrinks when divided by ten.
  exact Nat.div_lt_self (Nat.pos_of_ne_zero h.1) (by decide)

/-- The power of ten that scales the first digit of a number. -/
def leadingExponent (d : Decimal) : Int :=
  d.exponent + digitCount d.coefficient - 1

end Decimal

end Formula
