import Formula.Settings

/-! Bracketing searches: an estimate of a root between two points, made better step by step. -/

namespace Formula

/-- Two points that enclose a root, and an estimate of it. -/
structure Bracket where
  left : Float
  right : Float
  estimate : Float

namespace Bracket

/-- The middle of two points. -/
def middle (a b : Float) : Float :=
  (a + b) / 2

/-- A search starts from the middle of the interval. -/
def start (a b : Float) : Bracket :=
  ⟨a, b, middle a b⟩

/-- The estimate takes the place of the end whose value has the same sign. -/
def shrink (f : Float → Float) (left right estimate : Float) : Float × Float :=
  if f left * f estimate < 0 then (left, estimate) else (estimate, right)

/-- Where the chord between the ends of a bracket crosses zero. -/
def chordRoot (left right valueLeft valueRight : Float) : Float :=
  (left * valueRight - right * valueLeft) / (valueRight - valueLeft)

/-- False position moves the estimate to the root of the chord, unless the chord is level. -/
def falsePosition (f : Float → Float) (bracket : Bracket) : Option Bracket :=
  let valueLeft := f bracket.left
  let valueRight := f bracket.right
  if valueRight == valueLeft then none
  else
    let estimate := chordRoot bracket.left bracket.right valueLeft valueRight
    let ends := shrink f bracket.left bracket.right estimate
    some ⟨ends.1, ends.2, estimate⟩

/-- Bisection keeps the half in which the sign changes, and moves the estimate to its middle. -/
def bisect (f : Float → Float) (bracket : Bracket) : Option Bracket :=
  let ends := shrink f bracket.left bracket.right bracket.estimate
  some ⟨ends.1, ends.2, middle ends.1 ends.2⟩

/-- The value at the estimate is still larger than the tolerance. -/
def isCoarse (f : Float → Float) (tolerance : Number) (bracket : Bracket) : Bool :=
  tolerance.isBelow (.real (f bracket.estimate).abs)

/-- Steps are made while the estimate is coarse, a step is possible, and the limit allows one. -/
def refine (f : Float → Float) (advance : Bracket → Option Bracket) (tolerance : Number) :
    (limit done : Nat) → Bracket → Bracket × Nat
  | 0, done, bracket => (bracket, done)
  | limit + 1, done, bracket =>
    if bracket.isCoarse f tolerance then
      match advance bracket with
      | some next => refine f advance tolerance limit (done + 1) next
      | none => (bracket, done)
    else (bracket, done)

end Bracket

/-- The estimate of a root, and how many steps it took. -/
structure Estimate where
  point : Float
  iterations : Nat

namespace Bracket

/-- How many whole numbers from zero on are below a limit; an infinite one is above all doubles. -/
def stepsBelow : Number → Nat
  | .whole limit => limit.toNat
  | .real limit =>
    if limit > 0 then
      if limit.isFinite then
        let place := Double.exponent limit
        let unit := 2 ^ (-place).toNat
        -- A fraction leaves room for one more step.
        (Double.significand limit * 2 ^ place.toNat + unit - 1) / unit
      else 2 ^ 1024
    else 0

/-- The estimate that a bracketing search ends with. -/
def search (f : Float → Float) (advance : Bracket → Option Bracket) (tolerance limit : Number)
    (a b : Float) : Estimate :=
  let (bracket, iterations) := refine f advance tolerance (stepsBelow limit) 0 (start a b)
  ⟨bracket.estimate, iterations⟩

end Bracket

end Formula
