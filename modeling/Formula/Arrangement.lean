import Formula.Number
import Formula.Shape

/-! Arrangements: rectangles of cells and labelled series, and the quantities that fill them. -/

namespace Formula

/-- The name of an entry in a series. -/
inductive Label where
  | number (n : Int)
  | text (name : String)
  deriving DecidableEq

/-- How numbers are arranged: in a rectangle, or in a series with a label for each. -/
inductive Arrangement where
  | rectangle (shape : Shape)
  | series (labels : List Label)

namespace Arrangement

/-- How many cells there are. -/
def size : Arrangement → Nat
  | rectangle shape => shape.prod
  | series labels => labels.length

/-- A series has a single axis. -/
def shape : Arrangement → Shape
  | rectangle shape => shape
  | series labels => [labels.length]

end Arrangement

/-- Arrangements that do not fit together. -/
inductive ArrangementFault where
  | unequalLengths (values labels : Nat)
  | unjoinable (first second : Shape)
  | notARow (shape : Shape)
  deriving DecidableEq

/-- The wording of arrangements that do not fit together. -/
def ArrangementFault.message : ArrangementFault → String
  | unequalLengths values labels =>
    "Length of values (" ++ toString values ++ ") does not match length of index ("
      ++ toString labels ++ ")"
  | unjoinable first second =>
    "operands could not be broadcast together with shapes " ++ first.render "," ++ " "
      ++ second.render "," ++ " "
  | notARow shape =>
    "Data must be 1-dimensional, got ndarray of shape " ++ shape.render ", " ++ " instead"

/-- Numbers in an arrangement; a single number is a rectangle without axes. -/
structure Quantity (α : Type) where
  arrangement : Arrangement
  cells : Vector α arrangement.size

namespace Quantity

variable {α : Type}

/-- A single number. -/
def single (value : α) : Quantity α :=
  ⟨.rectangle [], #v[value]⟩

/-- The number of a rectangle without axes. -/
def single? : Quantity α → Option α
  | ⟨.rectangle [], cells⟩ => some (cells.get (0 : Fin 1))
  | _ => none

/-- Numbers in a rectangle, when there are just enough of them. -/
def ofShape? (shape : Shape) (values : List α) : Option (Quantity α) :=
  if full : values.length = shape.prod then
    some ⟨.rectangle shape, ⟨values.toArray, by simpa [Arrangement.size] using full⟩⟩
  else none

/-- Numbers with labels, of which there must be one for each. -/
def ofLabels (labels : List Label) (values : List α) : Except ArrangementFault (Quantity α) :=
  if full : values.length = labels.length then
    .ok ⟨.series labels, ⟨values.toArray, by simpa [Arrangement.size] using full⟩⟩
  else .error (.unequalLengths values.length labels.length)

/-- A series without labels is numbered from zero. -/
def numbered (values : List α) : Quantity α :=
  ⟨.series ((List.range values.length).map fun place => .number (place : Nat)),
    ⟨values.toArray, by simp [Arrangement.size]⟩⟩

/-- Every number becomes a double, unless one of them is too large. -/
def toDoubles (q : Quantity Number) : Except NumberFault (Quantity Float) :=
  (q.cells.mapM Number.toFloat).map (⟨q.arrangement, ·⟩)

end Quantity

end Formula
