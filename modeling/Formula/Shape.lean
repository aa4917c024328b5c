import Formula.Whole

/-! Shapes: the lengths of a rectangle of cells, and how a rectangle is repeated to fill others. -/

namespace Formula

/-- The lengths of a rectangle along its axes, outermost first; a single cell has no axis. -/
abbrev Shape := List Nat

namespace Shape

/-- Two lengths along an axis agree when they are equal or one of them can be repeated. -/
def joinLengths? (a b : Nat) : Option Nat :=
  if a = b then some a
  else if a = 1 then some b
  else if b = 1 then some a
  else none

/-- Two shapes with the innermost axis first are joined axis by axis. -/
def joinInward? : List Nat → List Nat → Option (List Nat)
  | a :: rest, b :: others => do
    let length ← joinLengths? a b
    let joined ← joinInward? rest others
    return length :: joined
  | [], others => some others
  | rest, [] => some rest

/-- The shape that two shapes can both be repeated to. -/
def join? (s t : Shape) : Option Shape :=
  (joinInward? s.reverse t.reverse).map List.reverse

/-- The place in a smaller rectangle of a cell of the joined one, innermost axis first. -/
def sourcePlace : (source joined : List Nat) → (place : Nat) → Nat
  | a :: rest, b :: others, place =>
    (if a = 1 then 0 else place % b) + a * sourcePlace rest others (place / b)
  | _, _, _ => 0

/-- For every cell of a joined shape, the place of the cell that is repeated there. -/
def sourcePlaces (source joined : Shape) : Vector Nat joined.prod :=
  Vector.ofFn fun place => sourcePlace source.reverse joined.reverse place

/-- The innermost axis of a joined shape with several places has only one in the source. -/
def repeatsInward : (source joined : List Nat) → Bool
  | a :: rest, b :: others => if b ≤ 1 then repeatsInward rest others else a == 1
  | _, _ => true

/-- Neighbouring cells of a joined shape share the cells of the second of the two shapes. -/
def sharesSecond (first second joined : Shape) : Bool :=
  match first, second with
  | _, [] => true
  | [], _ => false
  | _, _ => first != second && repeatsInward second.reverse joined.reverse

/-- Lengths between parentheses, where a single one is followed by a comma. -/
def render (separator : String) (s : Shape) : String :=
  match s with
  | [length] => "(" ++ toString length ++ ",)"
  | lengths => "(" ++ separator.intercalate (lengths.map toString) ++ ")"

end Shape

end Formula
