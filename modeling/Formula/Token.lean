import Formula.Text.Quoted

/-! Tokens: the pieces of a formula, each a text with its kind. -/

namespace Formula

/-- The part that a token plays in a formula. -/
inductive Kind where
  | literal
  | operator
  | leftParen
  | rightParen
  | function
  | comma
  deriving DecidableEq

namespace Kind

/-- The written name of a kind. -/
def name : Kind → String
  | literal => "LITERAL"
  | operator => "OPERATOR"
  | leftParen => "LEFT_PAREN"
  | rightParen => "RIGHT_PAREN"
  | function => "FUNCTION"
  | comma => "COMMA"

/-- The kinds, in the order in which they are declared. -/
def all : List Kind :=
  [literal, operator, leftParen, rightParen, function, comma]

/-- The kind with a given name. -/
def ofName? (name : String) : Option Kind :=
  all.find? fun kind => kind.name == name

end Kind

/-- A piece of a formula. -/
structure Token where
  text : String
  kind : Kind
  deriving DecidableEq

namespace Token

/-- The name of the one variable. -/
def variableName : String :=
  "x"

/-- The variable is a literal, so a function may share its name. -/
def isVariable (token : Token) : Bool :=
  token.kind == .literal && token.text == variableName

/-- A token as it is shown to a reader. -/
def describe (token : Token) : String :=
  "Token(" ++ Text.quoted token.text ++ ", " ++ token.kind.name ++ ")"

/-- How many different tokens a list holds. -/
def countDistinct (tokens : List Token) : Nat :=
  tokens.eraseDups.length

/-- What an attempt to change a token is told. -/
def immutableNotice : String :=
  "Token is immutable"

end Token

end Formula
