import Formula.Operation
import Formula.Token

/-! Conversion of infix tokens to postfix order, with a stack of tokens that wait for operands. -/

namespace Formula

/-- Why tokens have no postfix order. -/
inductive OrderFault where
  | mismatchedParentheses
  | misplacedComma
  deriving DecidableEq

/-- The wording of a fault in the order of tokens. -/
def OrderFault.message : OrderFault → String
  | mismatchedParentheses => "Mismatched parentheses!"
  | misplacedComma => "Syntax error! Mismatched parentheses/misplaced comma"

namespace Postfix

/-- An operator on the stack is emitted before an incoming one that binds no stronger. -/
def yields (respectAssociativity : Bool) (incoming top : Token) : Bool :=
  top.kind == .operator &&
    -- Operators that group from the right let their equals wait.
    if respectAssociativity && Operation.associativityOf incoming.text == .right then
      Operation.precedenceOf incoming.text < Operation.precedenceOf top.text
    else Operation.precedenceOf incoming.text ≤ Operation.precedenceOf top.text

/-- The tokens above the nearest left parenthesis of a stack, and that parenthesis with the rest. -/
def splitAtParen (stack : List Token) : List Token × List Token :=
  stack.span fun token => token.kind != .leftParen

/-- Emits the function whose arguments have just been closed, if one waits on top. -/
def closeCall : List Token → List Token × List Token
  | token :: below => if token.kind == .function then ([token], below) else ([], token :: below)
  | [] => ([], [])

/-- One token emits some of the waiting tokens, and perhaps itself, and leaves a new stack. -/
def step (respectAssociativity : Bool) (stack : List Token) (token : Token) :
    Except OrderFault (List Token × List Token) :=
  match token.kind with
  | .literal => .ok ([token], stack)
  | .operator =>
    let (emitted, waiting) := stack.span (yields respectAssociativity token)
    .ok (emitted, token :: waiting)
  | .leftParen | .function => .ok ([], token :: stack)
  | .rightParen =>
    match splitAtParen stack with
    | (_, []) => .error .mismatchedParentheses
    | (emitted, _ :: below) =>
      let (call, waiting) := closeCall below
      .ok (emitted ++ call, waiting)
  | .comma =>
    match splitAtParen stack with
    | (_, []) => .error .misplacedComma
    | (emitted, waiting) => .ok (emitted, waiting)

/-- At the end all waiting tokens are emitted, and none of them may be a left parenthesis. -/
def finish (stack : List Token) : Except OrderFault (List Token) :=
  if stack.any fun token => token.kind == .leftParen then .error .mismatchedParentheses
  else .ok stack

/-- The postfix order of tokens that follow a stack of waiting ones. -/
def orderFrom (respectAssociativity : Bool) (stack : List Token) :
    List Token → Except OrderFault (List Token)
  | [] => finish stack
  | token :: rest =>
    match step respectAssociativity stack token with
    | .error fault => .error fault
    | .ok (emitted, waiting) =>
      (orderFrom respectAssociativity waiting rest).map (emitted ++ ·)

/-- The postfix order of tokens; without respect for associativity all operators group left. -/
def order (respectAssociativity : Bool) (tokens : List Token) :
    Except OrderFault (List Token) :=
  orderFrom respectAssociativity [] tokens

/-- Tokens in a row, separated by spaces. -/
def render (tokens : List Token) : String :=
  " ".intercalate (tokens.map Token.text)

end Postfix

end Formula
