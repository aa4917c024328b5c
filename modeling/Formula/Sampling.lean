import Formula.Expression

/-! Sampling: evenly spaced points, the signs of values at them, and tables of values. -/

namespace Formula

namespace Sampling

/-- The point of an even grid at a place; a vanishing step gives way to a share of the span. -/
def gridPoint (start stop : Float) (last : Nat) (place : Nat) : Float :=
  let span := stop - start
  let step := span / last.toFloat
  if place = last then stop
  else if step == 0 then place.toFloat / last.toFloat * span + start
  else place.toFloat * step + start

/-- Evenly spaced points from a start to a stop, both included. -/
def evenGrid (start stop : Float) (count : Nat) : List Float :=
  (List.range count).map (gridPoint start stop (count - 1))

/-- The number of points of a grid: the given one truncated, or else the one of the settings. -/
def pointCount (settings : Settings) (given : Option Number) : Except Failure Number :=
  match given with
  | some count => (count.truncate.map .whole).mapError .number
  | none => Setting.required settings.numPoints.number?

/-- The points of a grid; there must be two of them even before the ends are converted. -/
def grid (settings : Settings) (start stop : Number) (given : Option Number) :
    Except Failure (List Float) := do
  let count ← pointCount settings given
  if count.isBelow (.whole 2) then throw (.argument .tooFewPoints)
  let start ← start.toFloat.mapError .number
  let stop ← stop.toFloat.mapError .number
  let count ← Setting.required count.whole?
  return evenGrid start stop count.toNat

/-- Neighbouring values change sign when both are finite and their product is negative. -/
def changesSign (left right : Float) : Bool :=
  left.isFinite && right.isFinite && left * right < 0

/-- The cells of a grid at whose ends the values change sign. -/
def signChanges : (xs ys : List Float) → List (Float × Float)
  | left :: right :: xs, before :: after :: ys =>
    let later := signChanges (right :: xs) (after :: ys)
    if changesSign before after then (left, right) :: later else later
  | _, _ => []

/-- The cells in which values change sign; every point needs exactly one value. -/
def brackets (xs ys : List Float) : Except Failure (List (Float × Float)) :=
  if xs.length = ys.length then .ok (signChanges xs ys)
  else .error (.argument .unequalLengths)

end Sampling

/-- A table of values, with the points that they belong to. -/
structure ValueTable where
  points : List Float
  values : List Float

namespace ValueTable

/-- What the values are called. -/
def valueName : String :=
  "f(x)"

/-- What the points are called. -/
def pointName : String :=
  "x"

/-- The values of an expression on a grid. -/
def ofExpression (settings : Settings) (e : Expression) (start stop : Number)
    (given : Option Number) : Except Failure ValueTable := do
  let points ← Sampling.grid settings start stop given
  let values ← e.evaluateAll points
  return ⟨points, values⟩

end ValueTable

end Formula
