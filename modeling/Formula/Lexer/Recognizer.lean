import Formula.Operation
import Formula.Text.Digit
import Formula.Text.Word
import Formula.Token

/-! Recognizers: what each kind of token looks like, given the characters on either side of it. -/

namespace Formula

/-- The forms of token, in order of priority. -/
inductive Recognizer where
  | literal
  | binaryOperator
  | unaryMinus
  | leftParen
  | rightParen
  | function
  | comma
  deriving DecidableEq

namespace Recognizer

/-- All forms of token, the one with the highest priority first. -/
def all : List Recognizer :=
  [literal, binaryOperator, unaryMinus, leftParen, rightParen, function, comma]

/-- The name under which a form of token is reported. -/
def name : Recognizer → String
  | literal => "literal"
  | binaryOperator => "operator"
  | unaryMinus => "unary_minus"
  | leftParen => "left_paren"
  | rightParen => "right_paren"
  | function => "function"
  | comma => "comma"

/-- The kind of the tokens of a form. -/
def kind : Recognizer → Kind
  | literal => .literal
  | binaryOperator => .operator
  | unaryMinus => .operator
  | leftParen => .leftParen
  | rightParen => .rightParen
  | function => .function
  | comma => .comma

/-- The token of a form with given characters; only the unary minus is renamed. -/
def token (form : Recognizer) (lexeme : List Char) : Token :=
  ⟨if form = unaryMinus then Operation.unaryMinus else String.ofList lexeme, form.kind⟩

/-- The signs of operations on two operands. -/
def isSign (c : Char) : Bool :=
  ['-', '+', '*', '/', '^'].contains c

/-- After a sign, an opening parenthesis or a comma an operand may follow. -/
def awaitsOperand (c : Char) : Bool :=
  isSign c || c == '(' || c == ','

/-- The length of a numeral after its first digit; a point belongs to it only between digits. -/
def numeralRest : List Char → Nat
  | [] => 0
  | c :: rest =>
    if Text.isDigit c || (c == '.' && rest.head?.any Text.isDigit) then numeralRest rest + 1 else 0

/-- The length of the numeral that a text starts with; numerals may hold several points. -/
def numeralLength (text : List Char) : Nat :=
  if text.head?.any Text.isDigit then numeralRest text else 0

/-- The length of the name that a text starts with, when an opening parenthesis follows it. -/
def callLength (text : List Char) : Nat :=
  if (text.dropWhile Char.isAlpha).head? == some '(' then (text.takeWhile Char.isAlpha).length
  else 0

/-- The text starts with the variable's letter and no word goes on after it. -/
def startsVariable : List Char → Bool
  | c :: rest => c == 'x' && !rest.head?.any Text.isWord
  | [] => false

/-- The text before ends in the variable's letter and no word leads up to it. -/
def endsVariable : List Char → Bool
  | c :: earlier => c == 'x' && !earlier.head?.any Text.isWord
  | [] => false

/-- The text before ends an operand: with a closing parenthesis, a digit or the variable. -/
def endsOperand (before : List Char) : Bool :=
  before.head?.any (fun c => c == ')' || Text.isDigit c) || endsVariable before

/-- The text starts an operand: with a digit, the variable, a call or an opening parenthesis. -/
def startsOperand (text : List Char) : Bool :=
  text.head?.any (fun c => Text.isDigit c || c == '(') || startsVariable text
    || callLength text != 0

/-- An operand may start at the beginning of the text or after what awaits one. -/
def operandPlace (before : List Char) : Bool :=
  before.isEmpty || before.head?.any awaitsOperand

/-- A minus sign is unary at the beginning, and between what awaits and what starts an operand. -/
def isUnaryMinus (before : List Char) : List Char → Bool
  | c :: rest =>
    c == '-' && (before.isEmpty || (before.head?.any awaitsOperand && startsOperand rest))
  | [] => false

/-- A single character when a condition on the text holds, else nothing. -/
def single (holds : Bool) : Nat :=
  if holds then 1 else 0

/-- The length of the token of a form at a place, or zero if there is none. -/
def matchLength (before after : List Char) : Recognizer → Nat
  | literal =>
    if numeralLength after != 0 then numeralLength after
    else single (startsVariable after && !before.head?.any Text.isWord)
  | binaryOperator => single (after.head?.any isSign && endsOperand before)
  | unaryMinus => single (isUnaryMinus before after)
  | leftParen => single (after.head? == some '(')
  | rightParen => single (after.head? == some ')')
  | function => if operandPlace before then callLength after else 0
  | comma => single (after.head? == some ',')

end Recognizer

end Formula
