/-! The operations of formulas: their symbols, how strongly they bind, and their arithmetic. -/

namespace Formula

/-- The operations on one operand. -/
inductive UnaryOperation where
  | neg
  | ln
  | sin
  | cos
  | tan
  | exp
  | sec
  | cosec
  | cot
  deriving DecidableEq

/-- The operations on two operands. -/
inductive BinaryOperation where
  | add
  | sub
  | mul
  | div
  | power
  | log
  deriving DecidableEq

/-- An operation takes one operand or two. -/
inductive Operation where
  | unary (operation : UnaryOperation)
  | binary (operation : BinaryOperation)
  deriving DecidableEq

/-- The side from which operations of one precedence are grouped. -/
inductive Associativity where
  | left
  | right
  deriving DecidableEq

/-- The written name of a side. -/
def Associativity.name : Associativity → String
  | left => "LEFT"
  | right => "RIGHT"

namespace Operation

/-- The text of the token for a minus sign with a single operand. -/
def unaryMinus : String :=
  "unary_minus"

/-- Every operation of the table, arithmetic first. -/
def all : List Operation :=
  [.binary .add, .binary .sub, .binary .mul, .binary .div, .binary .power, .unary .neg,
   .unary .ln, .binary .log, .unary .sin, .unary .cos, .unary .tan, .unary .exp,
   .unary .sec, .unary .cosec, .unary .cot]

/-- The name of an operation as an arithmetic function. -/
def name : Operation → String
  | binary .add => "add"
  | binary .sub => "sub"
  | binary .mul => "mul"
  | binary .div => "div"
  | binary .power => "power"
  | binary .log => "log"
  | unary .neg => "neg"
  | unary .ln => "ln"
  | unary .sin => "sin"
  | unary .cos => "cos"
  | unary .tan => "tan"
  | unary .exp => "exp"
  | unary .sec => "sec"
  | unary .cosec => "cosec"
  | unary .cot => "cot"

/-- The text of the token that stands for an operation; functions go by their names. -/
def symbol : Operation → String
  | binary .add => "+"
  | binary .sub => "-"
  | binary .mul => "*"
  | binary .div => "/"
  | binary .power => "^"
  | unary .neg => unaryMinus
  | operation => operation.name

/-- The number of operands. -/
def arity : Operation → Nat
  | unary _ => 1
  | binary _ => 2

/-- How strongly an operation binds; functions do not compete for operands. -/
def precedence : Operation → Nat
  | binary .add => 1
  | binary .sub => 1
  | binary .mul => 2
  | binary .div => 2
  | binary .power => 3
  | unary .neg => 4
  | _ => 0

/-- Powers and signs group from the right, all else from the left. -/
def associativity : Operation → Associativity
  | binary .power => .right
  | unary .neg => .right
  | _ => .left

/-- The operation that a token text stands for. -/
def ofSymbol? (text : String) : Option Operation :=
  all.find? fun operation => operation.symbol == text

/-- The operation with a given name as an arithmetic function. -/
def ofName? (text : String) : Option Operation :=
  all.find? fun operation => operation.name == text

/-- The precedence of a token text; one without an operation binds weakest. -/
def precedenceOf (text : String) : Nat :=
  ((ofSymbol? text).map precedence).getD 0

/-- The grouping of a token text; one without an operation groups from the left. -/
def associativityOf (text : String) : Associativity :=
  ((ofSymbol? text).map associativity).getD .left

end Operation

namespace UnaryOperation

/-- The result of an operation on a double; the reciprocal functions divide into one. -/
def apply : UnaryOperation → Float → Float
  | neg, a => -a
  | ln, a => a.log
  | sin, a => a.sin
  | cos, a => a.cos
  | tan, a => a.tan
  | exp, a => a.exp
  | sec, a => 1.0 / a.cos
  | cosec, a => 1.0 / a.sin
  | cot, a => 1.0 / a.tan

end UnaryOperation

namespace BinaryOperation

/-- Raising to a single exponent multiplies, takes a root or inverts where that says the same. -/
def raise (base exponent : Float) : Float :=
  if exponent == 2.0 then base * base
  else if exponent == 0.5 then base.sqrt
  else if exponent == -1.0 then 1.0 / base
  else base.pow exponent

/-- The result of an operation on two doubles, the second of which stands alone. -/
def apply : BinaryOperation → Float → Float → Float
  | add, a, b => a + b
  | sub, a, b => a - b
  | mul, a, b => a * b
  | div, a, b => a / b
  | power, a, b => raise a b
  | log, a, b => a.log / b.log

/-- The result of an operation on two doubles, the second of which is a cell among others. -/
def applyCell : BinaryOperation → Float → Float → Float
  | power, a, b => a.pow b
  | operation, a, b => operation.apply a b

end BinaryOperation

end Formula
