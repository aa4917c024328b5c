import Formula.Alignment
import Formula.Cells.Arithmetic
import Formula.Failure

/-! Calculations: single operations on given quantities, in the form that their numbers have. -/

namespace Formula

/-- Cells in an arrangement. -/
structure Block where
  arrangement : Arrangement
  cells : Cells arrangement.size

namespace Block

/-- Given numbers take the form of their arrangement; a single number is a double. -/
def ofQuantity : Quantity Number → Except NumberFault Block
  | ⟨.rectangle [], cells⟩ => do
    let value ← (cells.get ⟨0, Nat.one_pos⟩).toFloat
    return ⟨.rectangle [], .double (Vector.singleton value)⟩
  | ⟨.rectangle shape, cells⟩ => .ok ⟨.rectangle shape, .ofRectangle cells⟩
  | ⟨.series labels, cells⟩ => (Cells.ofSeries cells).map (⟨.series labels, ·⟩)

/-- The labels of a series. -/
def labels? (block : Block) : Option (List Label) :=
  match block.arrangement with
  | .series labels => some labels
  | .rectangle _ => none

/-- The block that a given quantity is after another one, which gives a single number its form. -/
def following (operation : BinaryOperation) (first : Block) (q : Quantity Number) :
    Except NumberFault Block :=
  match q.single? with
  | some number =>
    (first.cells.beside operation first.labels?.isSome number).map (⟨.rectangle [], ·⟩)
  | none => ofQuantity q

/-- Cells of a shape with the labels of a series, which must have one for each. -/
def withLabels (labels : List Label) (shape : Shape) (cells : Cells shape.prod) :
    Except ArrangementFault Block :=
  match shape, cells with
  | [length], cells =>
    if same : length = labels.length then
      .ok ⟨.series labels, cells.cast (by simp [same, Arrangement.size])⟩
    else .error (.unequalLengths length labels.length)
  | shape, _ => .error (.notARow shape)

/-- An operation on blocks that are not both series repeats each to the joined shape. -/
def combineShapes (operation : BinaryOperation) (a b : Block) : Except Failure Block := do
  let first := a.arrangement.shape
  let second := b.arrangement.shape
  let some joined := first.join? second
    | throw (.arrangement (.unjoinable first second))
  let cells ← (Cells.binary operation (first.sharesSecond second joined)
    (a.cells.pick (first.sourcePlaces joined))
    (b.cells.pick (second.sourcePlaces joined))).mapError .number
  match a.labels? <|> b.labels? with
  | some labels => (withLabels labels joined cells).mapError .arrangement
  | none => return ⟨.rectangle joined, cells⟩

/-- An operation on two series matches their entries by label. -/
def combineSeries (operation : BinaryOperation) (left right : List Label)
    (a : Cells left.length) (b : Cells right.length) : Except Failure Block := do
  let rows ← (Alignment.rows left right).mapError .arrangement
  let labels := rows.map AlignedRow.label
  let lefts : Vector (Option Nat) labels.length :=
    ⟨(rows.map AlignedRow.left).toArray, by simp [labels]⟩
  let rights : Vector (Option Nat) labels.length :=
    ⟨(rows.map AlignedRow.right).toArray, by simp [labels]⟩
  let cells ← (Cells.binary operation false (a.align lefts) (b.align rights)).mapError .number
  return ⟨.series labels, cells⟩

/-- An operation on two blocks. -/
def binary (operation : BinaryOperation) : Block → Block → Except Failure Block
  | ⟨.series left, a⟩, ⟨.series right, b⟩ => combineSeries operation left right a b
  | a, b => combineShapes operation a b

/-- An operation on one block keeps its arrangement. -/
def unary (operation : UnaryOperation) (block : Block) : Except NumberFault Block :=
  (block.cells.unary operation).map (⟨block.arrangement, ·⟩)

/-- The natural logarithms of a given quantity. -/
def logarithm (q : Quantity Number) : Except NumberFault Block := do
  let block ← ofQuantity q
  block.unary .ln

/-- The doubles nearest to all cells, unless one of them is too large. -/
def toQuantity (block : Block) : Except NumberFault (Quantity Float) :=
  Quantity.toDoubles ⟨block.arrangement, block.cells.numbers⟩

end Block

namespace Quantity

/-- An operation on one given quantity. -/
def unary (operation : UnaryOperation) (a : Quantity Number) : Except Failure (Quantity Float) :=
  (do
    let block ← Block.ofQuantity a
    let result ← block.unary operation
    result.toQuantity).mapError .number

/-- The block that an operation makes of two given quantities; a logarithm is a quotient of two. -/
def combine (operation : BinaryOperation) (a b : Quantity Number) : Except Failure Block := do
  if operation = .log then
    let first ← (Block.logarithm a).mapError .number
    let second ← (Block.logarithm b).mapError .number
    first.binary .div second
  else
    let first ← (Block.ofQuantity a).mapError .number
    let second ← (first.following operation b).mapError .number
    first.binary operation second

/-- An operation on two given quantities. -/
def binary (operation : BinaryOperation) (a b : Quantity Number) :
    Except Failure (Quantity Float) := do
  let result ← combine operation a b
  result.toQuantity.mapError .number

/-- An operation on as many given quantities as it takes. -/
def operate? : Operation → List (Quantity Number) → Option (Except Failure (Quantity Float))
  | .unary operation, [a] => some (a.unary operation)
  | .binary operation, [a, b] => some (a.binary operation b)
  | _, _ => none

end Quantity

end Formula
