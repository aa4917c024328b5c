import Formula.Decimal.Notation
import Formula.Decimal.Rounding

/-! Given numbers: whole numbers of any size beside doubles, compared and converted exactly. -/

namespace Formula

/-- A number as it is given: a whole number of any size, or a double. -/
inductive Number where
  | whole (n : Int)
  | real (x : Float)
  deriving Inhabited

/-- Why a number cannot be converted or calculated. -/
inductive NumberFault where
  | tooLarge
  | undefinedNotWhole
  | infiniteNotWhole
  | roundedTooLarge
  | outsideSigned
  | negativeForUnsigned (labelled : Bool)
  | outsideUnsigned (labelled : Bool)
  | negativeWordPower
  | quotientTooLarge
  | powerTooLarge
  | wholeByZero
  | realByZero
  | zeroToNegativePower
  | notReal
  | noFunction
  deriving DecidableEq

namespace NumberFault

/-- The wording of a failed conversion or calculation, which labels change for some of them. -/
def message : NumberFault → String
  | tooLarge => "int too large to convert to float"
  | undefinedNotWhole => "cannot convert float NaN to integer"
  | infiniteNotWhole => "cannot convert float infinity to integer"
  | roundedTooLarge => "rounded value too large to represent"
  | outsideSigned => "Python int too large to convert to C long"
  | negativeForUnsigned false => "can't convert negative int to unsigned"
  | negativeForUnsigned true => "can't convert negative value to unsigned int"
  | outsideUnsigned false => "int too big to convert"
  | outsideUnsigned true => "Python int too large to convert to C unsigned long"
  | negativeWordPower => "Integers to negative integer powers are not allowed."
  | quotientTooLarge => "integer division result too large for a float"
  | powerTooLarge => "(34, 'Numerical result out of range')"
  | wholeByZero => "division by zero"
  | realByZero => "float division by zero"
  | zeroToNegativePower => "0.0 cannot be raised to a negative power"
  | notReal => "the power is not a real number"
  | noFunction => "numbers of any size have no such function"

end NumberFault

/-- A double rounded to decimal places, unless rounding takes a finite one beyond all doubles. -/
def roundToPlaces (places : Int) (x : Float) : Except NumberFault Float :=
  let rounded := Decimal.round places x
  if x.isFinite && !rounded.isFinite then .error .roundedTooLarge else .ok rounded

/-- A double rounded to a whole number, which only finite doubles have near them. -/
def roundToWhole (x : Float) : Except NumberFault Float :=
  if x.isNaN then .error .undefinedNotWhole
  -- Whole numbers have one zero, without a sign.
  else if x.isFinite then .ok (Decimal.round 0 x + 0.0)
  else .error .infiniteNotWhole

namespace Number

/-- The whole number that is given, if one is. -/
def whole? : Number → Option Int
  | whole n => some n
  | real _ => none

/-- The nearest double, which is infinite for a whole number beyond all doubles. -/
def nearest : Number → Float
  | whole n => Double.nearest (n < 0) n.natAbs 1
  | real x => x

/-- A whole number becomes the nearest double, unless it is too large for one. -/
def toFloat : Number → Except NumberFault Float
  | whole n =>
    let nearest := (whole n).nearest
    if nearest.isFinite then .ok nearest else .error .tooLarge
  | real x => .ok x

/-- The signed significand of a finite double. -/
def signedSignificand (x : Float) : Int :=
  if Double.isNegative x then -(Double.significand x : Int) else Double.significand x

/-- A double is truncated towards zero; only finite doubles have a whole part. -/
def truncate : Number → Except NumberFault Int
  | whole n => .ok n
  | real x =>
    if x.isNaN then .error .undefinedNotWhole
    else if x.isFinite then
      let place := Double.exponent x
      .ok ((signedSignificand x * 2 ^ place.toNat).tdiv (2 ^ (-place).toNat))
    else .error .infiniteNotWhole

/-- A whole number against a finite double, both scaled to whole numbers. -/
def compareFinite (n : Int) (x : Float) : Ordering :=
  let place := Double.exponent x
  compare (n * 2 ^ (-place).toNat) (signedSignificand x * 2 ^ place.toNat)

/-- A whole number against a double; nothing compares with an undefined value. -/
def compareReal (n : Int) (x : Float) : Option Ordering :=
  if x.isNaN then none
  else if x.isFinite then some (compareFinite n x)
  else some (if Double.isNegative x then .gt else .lt)

/-- Numbers compare by value, without rounding either of them. -/
def compare? : Number → Number → Option Ordering
  | whole m, whole n => some (compare m n)
  | whole m, real y => compareReal m y
  | real x, whole n => (compareReal n x).map Ordering.swap
  | real x, real y => if x < y then some .lt else if y < x then some .gt
    else if x == y then some .eq else none

/-- Strictly below, by value. -/
def isBelow (a b : Number) : Bool :=
  a.compare? b == some .lt

/-- At most, by value. -/
def isAtMost (a b : Number) : Bool :=
  a.compare? b == some .lt || a.compare? b == some .eq

/-- The second number only if it is strictly below the first. -/
def lesser (a b : Number) : Number :=
  if b.isBelow a then b else a

/-- The second number only if it is strictly above the first. -/
def greater (a b : Number) : Number :=
  if a.isBelow b then b else a

/-- The number is neither zero nor the negative zero. -/
def isNonzero : Number → Bool
  | whole n => n != 0
  | real x => !(x == 0)

/-- A whole number is written without a point. -/
def text : Number → String
  | whole n => toString n
  | real x => Decimal.text x

end Number

end Formula
