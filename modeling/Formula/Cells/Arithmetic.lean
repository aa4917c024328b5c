import Formula.Cells
import Formula.Number.Arithmetic

/-! Arithmetic on cells: words wrap around, doubles round, and numbers of any size stay exact. -/

namespace Formula

/-- A power of a word by repeated squaring, which wraps around at every step. -/
def wordPower (base : UInt64) (exponent : Nat) : UInt64 :=
  if exponent = 0 then 1
  else
    let even := wordPower (base * base) (exponent / 2)
    if exponent % 2 = 0 then even else even * base
termination_by exponent
decreasing_by
  -- A positive exponent is more than its half.
  omega

/-- An operation on words, which wraps around; quotients and logarithms of words are no words. -/
def BinaryOperation.onWords? : BinaryOperation → Option (UInt64 → UInt64 → UInt64)
  | add => some (· + ·)
  | sub => some (· - ·)
  | mul => some (· * ·)
  | power => some fun base exponent => wordPower base exponent.toNat
  | div => none
  | log => none

namespace Cells

variable {n : Nat}

/-- An operation on one row; functions turn words into doubles, and signs are kept in words. -/
def unary (operation : UnaryOperation) (cells : Cells n) : Except NumberFault (Cells n) :=
  match operation, cells with
  | .neg, signed words => .ok (signed (words.map fun word => -word))
  | .neg, unsigned words => .ok (unsigned (words.map fun word => -word))
  | _, exact values => (values.mapM (Number.unary operation)).map exact
  | _, _ => .ok (double (cells.nearest.map operation.apply))

/-- Words with a sign are combined by their bits; their exponents must not be negative. -/
def combineSigned (operation : BinaryOperation) (onWords : UInt64 → UInt64 → UInt64)
    (a b : Vector Int64 n) : Except NumberFault (Vector Int64 n) :=
  if operation = .power && b.any fun exponent => exponent < 0 then .error .negativeWordPower
  else .ok (a.zipWith (fun x y => (onWords x.toUInt64 y.toUInt64).toInt64) b)

/-- Doubles are combined cell by cell, where the second of a pair may be shared by neighbours. -/
def combineDoubles (operation : BinaryOperation) (shared : Bool) (a b : Vector Float n) :
    Vector Float n :=
  a.zipWith (if shared then operation.apply else operation.applyCell) b

/-- An operation on two rows is carried out in the narrowest form that suits both. -/
def binary (operation : BinaryOperation) (shared : Bool) (a b : Cells n) :
    Except NumberFault (Cells n) :=
  match a, b, operation.onWords? with
  | signed x, signed y, some onWords => (combineSigned operation onWords x y).map signed
  | unsigned x, unsigned y, some onWords => .ok (unsigned (x.zipWith onWords y))
  | exact _, _, _ | _, exact _, _ =>
    ((a.numbers.zip b.numbers).mapM fun pair => Number.binary operation pair.1 pair.2).map exact
  | _, _, _ => .ok (double (combineDoubles operation shared a.nearest b.nearest))

/-- A single number beside cells takes on the form in which the operation treats them. -/
def beside (operation : BinaryOperation) (labelled : Bool) (cells : Cells n) (number : Number) :
    Except NumberFault (Cells 1) :=
  match cells, number, operation.onWords? with
  | exact _, _, _ => .ok (exact #v[number])
  | signed _, .whole _, some _ =>
    match number.signed? with
    | some word => .ok (signed #v[word])
    | none => .error .outsideSigned
  | unsigned _, .whole value, some _ =>
    match number.unsigned? with
    | some word => .ok (unsigned #v[word])
    | none =>
      .error (if value < 0 then .negativeForUnsigned labelled else .outsideUnsigned labelled)
  -- Without a word form of the operation, the number need only be within doubles.
  | _, _, _ => number.toFloat.map fun value => double #v[value]

end Cells

end Formula
