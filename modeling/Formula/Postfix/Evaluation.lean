import Formula.Decimal.Numeral
import Formula.Operand
import Formula.Token

/-! Evaluation of postfix tokens on a stack of operands. -/

namespace Formula

/-- Why postfix tokens have no value. -/
inductive EvaluationFault where
  | missingVariable
  | unexpectedToken (text : String)
  | unknownOperation (text : String)
  | missingOperands (operation : Operation)
  | wrongCount (count : Nat)
  deriving DecidableEq

namespace EvaluationFault

/-- The wording of a fault in evaluation. -/
def message : EvaluationFault → String
  | missingVariable =>
    "Unexpected error: Encountered token x (no value supplied for x)"
  | unexpectedToken text => "Unexpected error: Encountered token " ++ text
  | unknownOperation text => "Unexpected token '" ++ text ++ "'"
  | missingOperands _ => "Not enough operands!"
  | wrongCount _ => "Invalid number of literals"

/-- What is noted about the stack of operands when it is the cause. -/
def note? : EvaluationFault → Option String
  | missingOperands operation => some ("Insufficient operands for " ++ operation.symbol)
  | wrongCount count =>
    some ("Stack has " ++ toString count ++ " elements after evaluation, expected 1")
  | _ => none

end EvaluationFault

/-- What a token does to the stack of operands. -/
inductive Instruction where
  | number (value : Float)
  | variable
  | operation (operation : Operation)
  | refused (fault : EvaluationFault)

namespace Token

/-- A literal is the variable or a written number. -/
def literalInstruction (text : String) : Instruction :=
  if text = variableName then .variable
  else
    match readFloat? text with
    | some value => .number value
    | none => .refused (.unexpectedToken text)

/-- Literals push, operators and functions apply what their text stands for, and no others occur. -/
def instruction (token : Token) : Instruction :=
  match token.kind with
  | .literal => literalInstruction token.text
  | .operator | .function =>
    match Operation.ofSymbol? token.text with
    | some operation => .operation operation
    | none => .refused (.unknownOperation token.text)
  | _ => .refused (.unexpectedToken token.text)

end Token

/-- A program: what postfix tokens do, one after the other. -/
abbrev Program := List Instruction

namespace Program

/-- The program of postfix tokens. -/
def ofTokens (tokens : List Token) : Program :=
  tokens.map Token.instruction

variable {α : Type} [Arithmetic α]

/-- An operation takes its operands from the top of the stack, the last one first. -/
def applyOperation : Operation → List α → Except EvaluationFault (List α)
  | .unary operation, a :: stack => .ok (Arithmetic.unary operation a :: stack)
  | .binary operation, b :: a :: stack => .ok (Arithmetic.binary operation a b :: stack)
  | operation, _ => .error (.missingOperands operation)

/-- The effect of one instruction on the stack, for a given value of the variable. -/
def step (x : Option α) (stack : List α) : Instruction → Except EvaluationFault (List α)
  | .number value => .ok (Arithmetic.number value :: stack)
  | .variable =>
    match x with
    | some value => .ok (value :: stack)
    | none => .error .missingVariable
  | .operation operation => applyOperation operation stack
  | .refused fault => .error fault

/-- The stack after all instructions. -/
def run (x : Option α) (stack : List α) : Program → Except EvaluationFault (List α)
  | [] => .ok stack
  | instruction :: rest =>
    match step x stack instruction with
    | .error fault => .error fault
    | .ok next => run x next rest

/-- The value of a program is the one operand that it leaves. -/
def evaluate (x : Option α) (program : Program) : Except EvaluationFault α :=
  match run x [] program with
  | .error fault => .error fault
  | .ok [value] => .ok value
  | .ok stack => .error (.wrongCount stack.length)

/-- The value of a program at a number, undefined where evaluation fails. -/
def curve (program : Program) (x : Float) : Float :=
  match evaluate (some x) program with
  | .ok value => value
  | .error _ => Double.undefinedValue

/-- The value of a program at a quantity has the arrangement of that quantity. -/
def evaluateQuantity (x : Option (Quantity Float)) (program : Program) :
    Except EvaluationFault (Quantity Float) :=
  match x with
  | none => (evaluate none program).map .single
  | some q => (evaluate (some q.operand) program).map fun result => ⟨q.arrangement, result.cells⟩

/-- The values of a program at several numbers. -/
def evaluateAll (xs : List Float) (program : Program) : Except EvaluationFault (List Float) :=
  let row : Operand xs.length := .row ⟨xs.toArray, by simp⟩
  (evaluate (some row) program).map fun result => result.cells.toList

end Program

end Formula
