import Formula.Operation
import Formula.Arrangement

/-! Operands: what a formula computes with, a single double or a row of them. -/

namespace Formula

/-- What a formula's operations can compute with. -/
class Arithmetic (α : Type) where
  number : Float → α
  unary : UnaryOperation → α → α
  binary : BinaryOperation → α → α → α

instance : Arithmetic Float where
  number x := x
  unary operation := operation.apply
  binary operation := operation.apply

/-- An operand of a calculation over a row of cells: one number for all of them, or one for each. -/
inductive Operand (n : Nat) where
  | single (value : Float)
  | row (cells : Vector Float n)

namespace Operand

variable {n : Nat}

/-- An operation on one operand acts on every cell. -/
def unary (operation : UnaryOperation) : Operand n → Operand n
  | single a => single (operation.apply a)
  | row cells => row (cells.map operation.apply)

/-- An operation on two operands acts on every pair of cells. -/
def binary (operation : BinaryOperation) : Operand n → Operand n → Operand n
  | single a, single b => single (operation.apply a b)
  | row cells, single b => row (cells.map fun a => operation.apply a b)
  | single a, row cells => row (cells.map fun b => operation.applyCell a b)
  | row cells, row others => row (cells.zipWith operation.applyCell others)

/-- The number of every cell; a single number stands for all. -/
def cells : Operand n → Vector Float n
  | single value => .replicate n value
  | row cells => cells

end Operand

instance {n : Nat} : Arithmetic (Operand n) where
  number := .single
  unary := Operand.unary
  binary := Operand.binary

/-- The operand that a quantity is in a calculation over its own cells. -/
def Quantity.operand (q : Quantity Float) : Operand q.arrangement.size :=
  match q.single? with
  | some value => .single value
  | none => .row q.cells

end Formula
