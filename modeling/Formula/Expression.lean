import Formula.Settings

/-! Expressions: formulas in the variable x, read once and evaluated as often as needed. -/

namespace Formula

/-- A formula with its tokens in written order and in postfix order. -/
structure Expression where
  source : String
  tokens : List Token
  postfixTokens : List Token

namespace Expression

/-- The tokens of a text under settings and options; an unknown policy is found out first. -/
def tokenize (settings : Settings) (options : ReadingOptions) (text : String) :
    Except Failure (List Token) :=
  match settings.policyFor options with
  | .error failure => .error failure
  | .ok policy =>
    match Formula.tokenize policy (settings.rejectsUnknown options) text with
    | .error fault => .error (.formula (.lexical fault))
    | .ok tokens => .ok tokens

/-- The postfix order of tokens under settings. -/
def order (settings : Settings) (respectAssociativity : Option Bool) (tokens : List Token) :
    Except Failure (List Token) :=
  match Postfix.order (settings.respectsAssociativity respectAssociativity) tokens with
  | .error fault => .error (.formula (.order fault))
  | .ok ordered => .ok ordered

/-- The expression that a text writes. -/
def ofText (settings : Settings) (options : ReadingOptions) (text : String) :
    Except Failure Expression :=
  match tokenize settings options text with
  | .error failure => .error failure
  | .ok tokens => (order settings options.respectAssociativity tokens).map (⟨text, tokens, ·⟩)

/-- An expression depends on x when the variable is among its tokens. -/
def dependsOnX (e : Expression) : Bool :=
  e.tokens.any Token.isVariable

/-- What evaluation does, token by token. -/
def program (e : Expression) : Program :=
  .ofTokens e.postfixTokens

/-- The postfix form as a text. -/
def postfixText (e : Expression) : String :=
  Postfix.render e.postfixTokens

/-- An expression as it is shown to a reader. -/
def describe (e : Expression) : String :=
  "MathExpression(" ++ Text.quoted e.source ++ ")"

/-- The value of an expression at a number, or without one. -/
def evaluate (e : Expression) (x : Option Float) : Except Failure Float :=
  match e.program.evaluate x with
  | .error fault => .error (.formula (.evaluation fault))
  | .ok value => .ok value

/-- The value of an expression at a quantity, or without one. -/
def evaluateQuantity (e : Expression) (x : Option (Quantity Float)) :
    Except Failure (Quantity Float) :=
  match e.program.evaluateQuantity x with
  | .error fault => .error (.formula (.evaluation fault))
  | .ok value => .ok value

/-- The values of an expression at several numbers. -/
def evaluateAll (e : Expression) (xs : List Float) : Except Failure (List Float) :=
  match e.program.evaluateAll xs with
  | .error fault => .error (.formula (.evaluation fault))
  | .ok values => .ok values

end Expression

/-- What the lexer notes: each clash it settles by priority, and at the end how many tokens. -/
def lexicalRecords (settings : Settings) (options : ReadingOptions) (text : String) :
    List Record :=
  let stripped := Text.withoutBlanks text.toList
  let settled : List Record :=
    match settings.policyFor options with
    | .ok .priority => (clashes stripped).map fun clash =>
      ⟨.debug, "Token conflict at " ++ toString clash.position ++ ": keeping "
        ++ clash.kept.form.name ++ " over " ++ clash.other.form.name⟩
    | _ => []
  match Expression.tokenize settings options text with
  | .ok tokens => settled ++ [⟨.debug, "Tokenized '" ++ String.ofList stripped ++ "' into "
      ++ toString tokens.length ++ " tokens"⟩]
  | .error _ => settled

/-- What is noted about an expression that has been read. -/
def Expression.readRecord (e : Expression) : Record :=
  ⟨.debug, "Parsed '" ++ e.source ++ "' -> " ++ e.postfixText⟩

/-- What is noted about a failure to evaluate. -/
def Failure.evaluationRecords : Failure → List Record
  | .formula (.evaluation fault) => fault.note?.toList.map (Record.mk .debug)
  | _ => []

end Formula
