import Formula.Expression
import Formula.Root.Brent
import Formula.Sampling

/-! Searches for one root in an interval, and for all roots that a grid brackets. -/

namespace Formula

/-- A finished search for one root: how it went, and how far from zero it ended. -/
structure SearchRun where
  method : Method
  estimate : Estimate
  residual : Float
  tolerance : Number
  decimals : Setting

namespace SearchRun

/-- A search has converged when what is left is within the tolerance. -/
def hasConverged (run : SearchRun) : Bool :=
  Number.isAtMost (.real run.residual) run.tolerance

/-- The root that a search reports: its estimate, rounded as far as that can be done. -/
def root (run : SearchRun) : Except Failure Float :=
  run.decimals.round run.estimate.point

/-- What is noted about a finished search. -/
def record (run : SearchRun) (e : Expression) : Record :=
  let iterations := toString run.estimate.iterations
  if run.hasConverged then
    ⟨.debug, run.method.name ++ " converged in " ++ iterations ++ " iterations for '" ++ e.source
      ++ "'"⟩
  else
    ⟨.warning, run.method.name ++ " stopped after " ++ iterations
      ++ " iterations without converging (|f(m)|=" ++ Decimal.scientificText 3 run.residual
      ++ ") for '" ++ e.source ++ "'"⟩

end SearchRun

namespace Root

/-- The estimate that a method ends with. -/
def estimate (method : Method) (f : Float → Float) (tolerance limit : Number) (a b : Float) :
    Except Failure Estimate :=
  match method with
  | .regulaFalsi => .ok (Bracket.search f (Bracket.falsePosition f) tolerance limit a b)
  | .bisection => .ok (Bracket.search f (Bracket.bisect f) tolerance limit a b)
  | .brent => Brent.search f tolerance limit a b

/-- A search can start when the expression depends on x and changes sign over the interval. -/
def checkInterval (e : Expression) (a b : Float) : Except Failure Unit := do
  if !e.dependsOnX then throw (.search .constant)
  let valueLeft ← e.evaluate (some a)
  let valueRight ← e.evaluate (some b)
  if !(valueLeft * valueRight < 0) then throw (.search .noSignChange)

/-- One search: the method is resolved, the interval is checked, and only then the method runs. -/
def find (settings : Settings) (options : SearchOptions) (e : Expression) (a b : Number) :
    Except Failure SearchRun := do
  let method ← settings.methodFor options
  let a ← a.toFloat.mapError .number
  let b ← b.toFloat.mapError .number
  checkInterval e a b
  let limit ← settings.maxIterationsFor options
  let tolerance ← settings.toleranceFor options
  let curve := e.program.curve
  let estimate ← estimate method curve tolerance limit a b
  return ⟨method, estimate, (curve estimate.point).abs, tolerance, settings.decimalsFor options⟩

/-- A root joins those found before it, unless one of them is equal to it. -/
def insert (roots : List Float) (root : Float) : List Float :=
  if roots.any (· == root) then roots else roots ++ [root]

/-- The roots in ascending order. -/
def ascending (roots : List Float) : List Float :=
  roots.mergeSort fun a b => !(b < a)

end Root

/-- What a search for all roots has come to: its finished runs, and its roots or its failure. -/
structure Sweep where
  runs : List SearchRun
  roots : Except Failure (List Float)

namespace Sweep

/-- The searches in a row of brackets, until one of them fails. -/
def overBrackets (settings : Settings) (options : SearchOptions) (e : Expression)
    (roots : List Float) : List (Float × Float) → Sweep
  | [] => ⟨[], .ok roots⟩
  | (left, right) :: rest =>
    match Root.find settings options e (.real left) (.real right) with
    | .error failure => ⟨[], .error failure⟩
    | .ok run =>
      match run.root with
      | .error failure => ⟨[run], .error failure⟩
      | .ok root =>
        let later := overBrackets settings options e (Root.insert roots root) rest
        ⟨run :: later.runs, later.roots⟩

/-- The points of a grid at which the value is zero, rounded. -/
def gridZeros (decimals : Setting) (xs ys : List Float) : Except Failure (List Float) :=
  ((List.zip xs ys).filter fun sample => sample.2 == 0).mapM fun sample =>
    decimals.round sample.1

/-- The ends of the interval in ascending order. -/
def ends (a b : Number) : Number × Number :=
  (a.lesser b, a.greater b)

/-- The number of grid points; zero points mean those of the settings. -/
def pointsFor (settings : Settings) (given : Option Int) : Except Failure Int :=
  match given with
  | some count => if count = 0 then settings.numPoints.truncate else .ok count
  | none => settings.numPoints.truncate

/-- All roots that a grid shows: the zeros on it, and one root for each change of sign. -/
def find (settings : Settings) (options : SearchOptions) (e : Expression) (a b : Number)
    (points : Option Int) : Sweep :=
  let prepared : Except Failure (List Float × List (Float × Float)) := do
    if !e.dependsOnX then throw (.search .constant)
    let count ← pointsFor settings points
    let (low, high) := ends a b
    let xs ← Sampling.grid settings low high (some (.whole count))
    let ys ← e.evaluateAll xs
    let zeros ← gridZeros (settings.decimalsFor options) xs ys
    return (zeros, Sampling.signChanges xs ys)
  match prepared with
  | .error failure => ⟨[], .error failure⟩
  | .ok (zeros, brackets) =>
    let sweep := overBrackets settings options e (zeros.foldl Root.insert []) brackets
    ⟨sweep.runs, sweep.roots.map Root.ascending⟩

/-- What is noted about a search for all roots: its runs, and at the end the number of roots. -/
def records (sweep : Sweep) (e : Expression) (a b : Number) : List Record :=
  let runs := sweep.runs.map fun run => run.record e
  match sweep.roots with
  | .error _ => runs
  | .ok roots =>
    let (low, high) := ends a b
    runs ++ [⟨.debug, "Found " ++ toString roots.length ++ " roots of '" ++ e.source ++ "' in ["
      ++ low.text ++ ", " ++ high.text ++ "]"⟩]

end Sweep

end Formula
