import Formula.Number.Word
import Formula.Root.Bracketing

/-!
Brent's search: interpolation while it makes good progress, and bisection otherwise.

The search is not part of the program. It stands for the routine of a numerical library that the
program calls, and follows the steps of that routine, so that the program can be run with it.

Theorems about searches do not rest on these steps. They use only which tolerances and limits are
refused before the first step, and that the search can fail later only where the curve is undefined.
-/

namespace Formula

namespace Brent

/-- The relative width below which an interval counts as a point: four units in the last place. -/
def relativeTolerance : Float :=
  8.881784197001252e-16

/-- A point with the value there. -/
structure Sample where
  point : Float
  value : Float

/-- The newest estimate, the one before, the opposite end, and the last two displacements. -/
structure State where
  previous : Sample
  current : Sample
  opposite : Sample
  displacement : Float
  earlierDisplacement : Float

/-- The values at two points lie on different sides of zero. -/
def straddle (a b : Float) : Bool :=
  a != 0 && b != 0 && Double.isNegative a != Double.isNegative b

/-- The opposite end is renewed whenever the last two estimates enclose the root. -/
def encloseRoot (s : State) : State :=
  if straddle s.previous.value s.current.value then
    let width := s.current.point - s.previous.point
    { s with opposite := s.previous, displacement := width, earlierDisplacement := width }
  else s

/-- The end with the smaller value becomes the newest estimate. -/
def preferSmaller (s : State) : State :=
  if s.opposite.value.abs < s.current.value.abs then
    { s with previous := s.current, current := s.opposite, opposite := s.current }
  else s

/-- The least displacement that is worth making near a point. -/
def resolution (tolerance point : Float) : Float :=
  (tolerance + relativeTolerance * point.abs) / 2

/-- Half the way from the newest estimate to the opposite end. -/
def halfway (s : State) : Float :=
  (s.opposite.point - s.current.point) / 2

/-- The displacement of linear interpolation between the last two estimates. -/
def secant (s : State) : Float :=
  (-s.current.value) * (s.current.point - s.previous.point) / (s.current.value - s.previous.value)

/-- The displacement of inverse quadratic interpolation through all three points. -/
def extrapolation (s : State) : Float :=
  let slopePrevious :=
    (s.previous.value - s.current.value) / (s.previous.point - s.current.point)
  let slopeOpposite :=
    (s.opposite.value - s.current.value) / (s.opposite.point - s.current.point)
  (-s.current.value) * (s.opposite.value * slopeOpposite - s.previous.value * slopePrevious)
    / (slopeOpposite * slopePrevious * (s.opposite.value - s.previous.value))

/-- The displacement that interpolation proposes. -/
def proposal (s : State) : Float :=
  if s.previous.point == s.opposite.point then secant s else extrapolation s

/-- The smaller of two numbers, the second unless the first is strictly below it. -/
def smaller (a b : Float) : Float :=
  if a < b then a else b

/-- Interpolation is accepted when it is short against the last steps and the half interval. -/
def isShort (s : State) (delta stride : Float) : Bool :=
  2 * stride.abs < smaller s.earlierDisplacement.abs (3 * (halfway s).abs - delta)

/-- The next two displacements: by interpolation where it is promising, else by bisection. -/
def displacements (s : State) (delta : Float) : Float × Float :=
  let bisection := (halfway s, halfway s)
  if s.earlierDisplacement.abs > delta && s.current.value.abs < s.previous.value.abs then
    let stride := proposal s
    if isShort s delta stride then (s.displacement, stride) else bisection
  else bisection

/-- A displacement below the resolution is lengthened to it, towards the opposite end. -/
def target (s : State) (delta displacement : Float) : Float :=
  if displacement.abs > delta then s.current.point + displacement
  else s.current.point + (if halfway s > 0 then delta else -delta)

/-- The value at a point, which must be defined. -/
def valueAt (f : Float → Float) (x : Float) : Except ArgumentFault Float :=
  let value := f x
  if value.isNaN then .error (.undefinedAt x) else .ok value

/-- The newest estimate moves, and the one before remembers where it was. -/
def move (f : Float → Float) (s : State) (delta : Float) : Except ArgumentFault State :=
  let (earlier, displacement) := displacements s delta
  let point := target s delta displacement
  match valueAt f point with
  | .error fault => .error fault
  | .ok value => .ok ⟨s.current, ⟨point, value⟩, s.opposite, displacement, earlier⟩

/-- Steps are made until the interval is narrow, a root is hit, or the limit is reached. -/
def refine (f : Float → Float) (tolerance : Float) :
    (limit done : Nat) → State → Except ArgumentFault Estimate
  | 0, done, s => .ok ⟨s.current.point, done⟩
  | limit + 1, done, s =>
    let ordered := preferSmaller (encloseRoot s)
    let delta := resolution tolerance ordered.current.point
    if ordered.current.value == 0 || (halfway ordered).abs < delta then
      .ok ⟨ordered.current.point, done + 1⟩
    else
      match move f ordered delta with
      | .error fault => .error fault
      | .ok next => refine f tolerance limit (done + 1) next

/-- Steps are counted in words of 32 bits. -/
def stepCount (limit : Int) : Except Failure Nat :=
  if (Number.whole limit).signed?.isNone then .error (.limit .outsideWords)
  else if 2 ^ 31 ≤ limit then .error (.limit .aboveCounter)
  else if limit < -2 ^ 31 then .error (.limit .belowCounter)
  else if limit < 0 then .error (.argument .negativeLimit)
  else .ok limit.toNat

/-- The estimate that the search ends with; tolerance and limit are checked first. -/
def search (f : Float → Float) (tolerance limit : Number) (a b : Float) :
    Except Failure Estimate := do
  let limit ← Setting.required limit.whole?
  let nonPositive := tolerance.isAtMost (.whole 0)
  let tolerance ← tolerance.toFloat.mapError .number
  if nonPositive then throw (.argument (.narrowTolerance tolerance))
  let limit ← stepCount limit
  let valueLeft ← (valueAt f a).mapError .argument
  let valueRight ← (valueAt f b).mapError .argument
  (refine f tolerance limit 0 ⟨⟨a, valueLeft⟩, ⟨b, valueRight⟩, ⟨0, 0⟩, 0, 0⟩).mapError
    .argument

end Brent

end Formula
