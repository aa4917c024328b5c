import Formula.Number
import Formula.Operation

/-! Arithmetic on given numbers: whole numbers stay exact, and doubles round as always. -/

namespace Formula.Number

/-- Two whole numbers are combined exactly, and any other two as doubles. -/
def combine (exactly : Int → Int → Int) (rounded : Float → Float → Float) (a b : Number) :
    Except NumberFault Number :=
  match a, b with
  | whole m, whole n => .ok (whole (exactly m n))
  | _, _ => do
    let x ← a.toFloat
    let y ← b.toFloat
    return real (rounded x y)

/-- The double nearest to a quotient of whole numbers. -/
def wholeQuotient (m n : Int) : Except NumberFault Float :=
  if n = 0 then .error .wholeByZero
  else
    let nearest := Double.nearest ((m < 0) != (n < 0)) m.natAbs n.natAbs
    if nearest.isFinite then .ok nearest else .error .quotientTooLarge

/-- The quotient of two doubles, the second of which must not be zero. -/
def realQuotient (x y : Float) : Except NumberFault Float :=
  if y == 0 then .error .realByZero else .ok (x / y)

/-- Quotients are doubles, and a quotient of whole numbers is rounded only once. -/
def quotient (a b : Number) : Except NumberFault Number :=
  match a, b with
  | whole m, whole n => (wholeQuotient m n).map real
  | _, _ => do
    let x ← a.toFloat
    let y ← b.toFloat
    return real (← realQuotient x y)

/-- The power of two doubles, where finite ones must have a finite real power. -/
def realPower (x y : Float) : Except NumberFault Float :=
  let result := x.pow y
  if !(x.isFinite && y.isFinite) then .ok result
  else if x == 0 && y < 0 then .error .zeroToNegativePower
  else if x < 0 && y.floor != y then .error .notReal
  else if result.isFinite then .ok result
  else .error .powerTooLarge

/-- Powers are doubles unless both numbers are whole and the exponent is not negative. -/
def power (a b : Number) : Except NumberFault Number :=
  match a, b with
  | whole m, whole (.ofNat n) => .ok (whole (m ^ n))
  | _, _ => do
    let x ← a.toFloat
    let y ← b.toFloat
    return real (← realPower x y)

/-- Given numbers can be negated, but have no other functions. -/
def unary : UnaryOperation → Number → Except NumberFault Number
  | .neg, whole n => .ok (whole (-n))
  | .neg, real x => .ok (real (-x))
  | _, _ => .error .noFunction

/-- An operation on two given numbers. -/
def binary : BinaryOperation → Number → Number → Except NumberFault Number
  | .add => combine (· + ·) (· + ·)
  | .sub => combine (· - ·) (· - ·)
  | .mul => combine (· * ·) (· * ·)
  | .div => quotient
  | .power => power
  | .log => fun _ _ => .error .noFunction

end Formula.Number
