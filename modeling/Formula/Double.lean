import Formula.Rounding

/-! Doubles as exact binary numbers: what a double is worth, and the double nearest to a ratio. -/

namespace Formula.Double

/-- The exponent of the smallest positive double. -/
def leastExponent : Int :=
  -1074

/-- The bit pattern of positive infinity, one above that of the largest double. -/
def infinityPattern : Nat :=
  0x7ff * 2 ^ 52

/-- The lowest 52 bits of a double. -/
def fractionBits (x : Float) : Nat :=
  x.toBits.toNat % 2 ^ 52

/-- The eleven bits of a double that choose its scale. -/
def scaleBits (x : Float) : Nat :=
  x.toBits.toNat / 2 ^ 52 % 2 ^ 11

/-- The sign bit, which zero has too. -/
def isNegative (x : Float) : Bool :=
  2 ^ 63 ≤ x.toBits.toNat

/-- The magnitude of a finite double is its significand times two to its exponent. -/
def significand (x : Float) : Nat :=
  -- Only the smallest doubles lack the leading bit.
  if scaleBits x = 0 then fractionBits x else 2 ^ 52 + fractionBits x

/-- The power of two that scales the significand of a finite double. -/
def exponent (x : Float) : Int :=
  if scaleBits x = 0 then leastExponent else (scaleBits x : Int) - 1075

/-- The place of the leading binary digit of a positive ratio. -/
def leadingPlace (numerator denominator : Nat) : Int :=
  let place : Int := numerator.log2 - denominator.log2
  if numerator * 2 ^ (-place).toNat < denominator * 2 ^ place.toNat then place - 1 else place

/-- The exponent at which a positive ratio is rounded to a significand of 53 binary digits. -/
def roundingExponent (numerator denominator : Nat) : Int :=
  max (leadingPlace numerator denominator - 52) leastExponent

/-- The bit pattern of the non-negative double nearest to a ratio. -/
def nearestPattern (numerator denominator : Nat) : Nat :=
  if numerator = 0 then 0
  else
    let place := roundingExponent numerator denominator
    let rounded := nearestQuotient (numerator * 2 ^ (-place).toNat) (denominator * 2 ^ place.toNat)
    -- Patterns count doubles upwards, so a carry out of the significand steps to the next scale.
    min ((place - leastExponent).toNat * 2 ^ 52 + rounded) infinityPattern

/-- The double with a given sign and magnitude pattern. -/
def ofPattern (negative : Bool) (pattern : Nat) : Float :=
  Float.ofBits (UInt64.ofNat (if negative then 2 ^ 63 + pattern else pattern))

/-- The double nearest to a signed ratio; ties go to the even significand, excess to infinity. -/
def nearest (negative : Bool) (numerator denominator : Nat) : Float :=
  ofPattern negative (nearestPattern numerator denominator)

/-- The double that is not a number. -/
def undefinedValue : Float :=
  Float.ofBits 0x7ff8000000000000

end Formula.Double
