import Formula.Proofs.Decimal.Plain
import Formula.Proofs.Lexer.Language
import Formula.Proofs.Postfix.Conversion
import Formula.Proofs.Postfix.Evaluation

/-! The grammar of formulas: its derivations, and the tokens, the tree and the value of each. -/

namespace Formula

/-- The phrases of the grammar, from those that bind least to those that bind most. -/
inductive Phrase where
  | sum
  | product
  | power
  | signed
  | atom

/-- How strongly the operators of a phrase bind at least, unless they are within parentheses. -/
def Phrase.binding : Phrase → Nat
  | sum => 1
  | product => 2
  | power => 3
  | signed => 4
  | atom => 5

/-- Derivations of the grammar; powers group from the right where associativity is respected. -/
inductive Derivation (respecting : Bool) : Phrase → Type where
  | add (left : Derivation respecting .sum) (right : Derivation respecting .product) :
      Derivation respecting .sum
  | subtract (left : Derivation respecting .sum) (right : Derivation respecting .product) :
      Derivation respecting .sum
  | ofProduct (inner : Derivation respecting .product) : Derivation respecting .sum
  | multiply (left : Derivation respecting .product) (right : Derivation respecting .power) :
      Derivation respecting .product
  | divide (left : Derivation respecting .product) (right : Derivation respecting .power) :
      Derivation respecting .product
  | ofPower (inner : Derivation respecting .power) : Derivation respecting .product
  | powerLeft (grouping : respecting = false) (base : Derivation respecting .power)
      (exponent : Derivation respecting .signed) : Derivation respecting .power
  | powerRight (grouping : respecting = true) (base : Derivation respecting .signed)
      (exponent : Derivation respecting .power) : Derivation respecting .power
  | ofSigned (inner : Derivation respecting .signed) : Derivation respecting .power
  | negate (operand : Derivation respecting .atom) : Derivation respecting .signed
  | ofAtom (inner : Derivation respecting .atom) : Derivation respecting .signed
  | numeral (number : PlainNumeral) : Derivation respecting .atom
  | letter : Derivation respecting .atom
  | call (operation : UnaryOperation) (named : operation ≠ .neg)
      (argument : Derivation respecting .sum) : Derivation respecting .atom
  | logarithm (argument base : Derivation respecting .sum) : Derivation respecting .atom
  | group (inner : Derivation respecting .sum) : Derivation respecting .atom

namespace Token

/-- The token of an operation that is written with a sign. -/
def sign (operation : Operation) : Token :=
  ⟨operation.symbol, .operator⟩

/-- The token of an operation that is written with a name. -/
def named (operation : Operation) : Token :=
  ⟨operation.symbol, .function⟩

/-- An opening parenthesis. -/
def opening : Token :=
  ⟨"(", .leftParen⟩

/-- A closing parenthesis. -/
def closing : Token :=
  ⟨")", .rightParen⟩

/-- A comma between arguments. -/
def separator : Token :=
  ⟨",", .comma⟩

/-- The variable. -/
def letter : Token :=
  ⟨variableName, .literal⟩

/-- A written number. -/
def numeral (number : PlainNumeral) : Token :=
  ⟨String.ofList number.characters, .literal⟩

end Token

namespace Token

/-- A written number is spelled as a literal, and is not the variable. -/
theorem numeral_spelled (number : PlainNumeral) :
    (numeral number).Spelled ∧ (numeral number).isVariable = false := by
  -- The characters of a plain numeral are a numeral to the lexer, too.
  have spelled : (numeral number).Spelled := .inr (by simpa [numeral] using number.isNumeral)
  refine ⟨spelled, ?_⟩
  rcases spelled.literal rfl with ⟨-, lexeme⟩ | ⟨unnamed, -⟩
  · -- The variable is no numeral.
    have written : (numeral number).lexeme = number.characters :=
      (lexeme_of_isWord rfl).trans String.toList_ofList
    have isNumeral := number.isNumeral
    rw [← written, lexeme] at isNumeral
    exact absurd isNumeral.isDigit_head (by decide)
  · exact unnamed

/-- A function of the table is spelled with a name. -/
theorem named_spelled {operation : Operation} (known : operation.precedence = 0) :
    (named operation).Spelled := by
  -- The names of the table are letters throughout, and longer than the variable.
  have letters : ∀ operation ∈ Operation.all, operation.precedence = 0 →
      operation.symbol ≠ "" ∧ operation.symbol.toList.all Char.isAlpha = true ∧
        operation.symbol ≠ variableName := by
    decide
  obtain ⟨nonempty, isAlpha, unnamed⟩ := letters operation operation.mem_all known
  exact ⟨nonempty, List.all_eq_true.mp isAlpha, unnamed⟩

end Token

/-- Tokens that may come after any operand, and that do not start with an opening parenthesis. -/
def Continues (policy : ConflictPolicy) (rest : List Token) : Prop :=
  rest.head?.any (·.kind == .leftParen) = false ∧
    ∀ last : Token, last.kind.endsOperand = true → WellPlaced policy (some last) rest

namespace Continues

variable {policy : ConflictPolicy} {rest : List Token}

/-- A formula may end after any operand. -/
theorem nil : Continues policy [] :=
  ⟨rfl, fun _ _ => trivial⟩

/-- A closing parenthesis may come after any operand. -/
theorem closing (continues : Continues policy rest) : Continues policy (.closing :: rest) := by
  -- After the parenthesis an operand has ended again, so that the rest may come.
  refine ⟨rfl, fun last _ => ⟨⟨rfl, nofun, nofun, nofun, nofun, nofun⟩, ?_⟩⟩
  exact continues.2 .closing rfl

/-- A comma may come after any operand. -/
theorem separator (placed : WellPlaced policy (some .separator) rest) :
    Continues policy (.separator :: rest) :=
  -- A comma asks for nothing before it, and what comes after it is given.
  ⟨rfl, fun _ _ => ⟨⟨rfl, nofun, nofun, nofun, nofun, nofun⟩, placed⟩⟩

/-- A binary operator may come after any operand. -/
theorem sign {operation : BinaryOperation} (known : operation ≠ .log)
    (placed : WellPlaced policy (some (.sign (.binary operation))) rest) :
    Continues policy (.sign (.binary operation) :: rest) := by
  -- All binary operations but the logarithm are written with a sign.
  have listed : (Token.sign (.binary operation)).text ∈
      ["+", "-", "*", "/", "^", Operation.unaryMinus] := by
    cases operation with
    | log => exact absurd rfl known
    | add | sub | mul | div | power => decide
  -- Only the minus sign of a negation has conditions of its own.
  have binary : (Token.sign (.binary operation)).isUnaryMinus = false := by
    cases operation <;> decide
  refine ⟨rfl, fun last ends => ⟨⟨listed, fun _ _ => ends, ?_, nofun, nofun, nofun⟩, placed⟩⟩
  simp [binary]

/-- A literal is an operand by itself. -/
theorem literal (continues : Continues policy rest) {previous : Option Token}
    (awaits : previous.all (·.kind.awaitsOperand) = true) {token : Token}
    (kind : token.kind = .literal) (spelled : token.Spelled) :
    WellPlaced policy previous (token :: rest) := by
  -- A literal is asked for nothing but that no word stands beside it.
  have notUnary : token.isUnaryMinus = false := by simp [Token.isUnaryMinus, kind]
  have apart : previous.all (·.kind != .literal) = true := by
    rw [Option.all_eq_true] at awaits ⊢
    intro prior first
    have operand := awaits prior first
    cases priorKind : prior.kind <;> first | rfl | simp [priorKind, Kind.awaitsOperand] at operand
  refine ⟨⟨spelled, ?_, ?_, ?_, fun _ => apart, ?_⟩, continues.2 token (kind ▸ rfl)⟩
  · simp [kind]
  · simp [notUnary]
  · simp [kind]
  · simp [continues.1]

end Continues

/-- A name and an opening parenthesis may stand where an operand is awaited. -/
theorem WellPlaced.call {policy : ConflictPolicy} {rest : List Token} {previous : Option Token}
    (awaits : previous.all (·.kind.awaitsOperand) = true)
    {operation : Operation} (known : operation.precedence = 0)
    (placed : WellPlaced policy (some .opening) rest) :
    WellPlaced policy previous (.named operation :: .opening :: rest) :=
  -- Only the name looks at what comes before, and at the parenthesis after it.
  ⟨⟨Token.named_spelled known, nofun, nofun, fun _ => ⟨awaits, rfl⟩, nofun, nofun⟩,
    ⟨rfl, nofun, nofun, nofun, nofun, nofun⟩, placed⟩

namespace Derivation

variable {respecting : Bool}

/-- The tokens that spell a derivation. -/
def tokens : {phrase : Phrase} → Derivation respecting phrase → List Token
  | _, add left right => left.tokens ++ .sign (.binary .add) :: right.tokens
  | _, subtract left right => left.tokens ++ .sign (.binary .sub) :: right.tokens
  | _, multiply left right => left.tokens ++ .sign (.binary .mul) :: right.tokens
  | _, divide left right => left.tokens ++ .sign (.binary .div) :: right.tokens
  | _, powerLeft _ base exponent => base.tokens ++ .sign (.binary .power) :: exponent.tokens
  | _, powerRight _ base exponent => base.tokens ++ .sign (.binary .power) :: exponent.tokens
  | _, negate operand => .sign (.unary .neg) :: operand.tokens
  | _, numeral number => [.numeral number]
  | _, letter => [.letter]
  | _, call operation _ argument =>
    .named (.unary operation) :: .opening :: (argument.tokens ++ [.closing])
  | _, logarithm argument base =>
    .named (.binary .log) :: .opening ::
      (argument.tokens ++ .separator :: (base.tokens ++ [.closing]))
  | _, group inner => .opening :: (inner.tokens ++ [.closing])
  | _, ofProduct inner | _, ofPower inner | _, ofSigned inner | _, ofAtom inner => inner.tokens

/-- The tree of a derivation, in which parentheses and commas no longer occur. -/
def tree : {phrase : Phrase} → Derivation respecting phrase → TokenTree
  | _, add left right => .node (.sign (.binary .add)) [left.tree, right.tree]
  | _, subtract left right => .node (.sign (.binary .sub)) [left.tree, right.tree]
  | _, multiply left right => .node (.sign (.binary .mul)) [left.tree, right.tree]
  | _, divide left right => .node (.sign (.binary .div)) [left.tree, right.tree]
  | _, powerLeft _ base exponent | _, powerRight _ base exponent =>
    .node (.sign (.binary .power)) [base.tree, exponent.tree]
  | _, negate operand => .node (.sign (.unary .neg)) [operand.tree]
  | _, numeral number => .node (.numeral number) []
  | _, letter => .node .letter []
  | _, call operation _ argument => .node (.named (.unary operation)) [argument.tree]
  | _, logarithm argument base => .node (.named (.binary .log)) [argument.tree, base.tree]
  | _, ofProduct inner | _, ofPower inner | _, ofSigned inner | _, ofAtom inner
  | _, group inner => inner.tree

/-- The value of a derivation at a number, by recursion on its structure. -/
def value (x : Float) : {phrase : Phrase} → Derivation respecting phrase → Float
  | _, add left right => left.value x + right.value x
  | _, subtract left right => left.value x - right.value x
  | _, multiply left right => left.value x * right.value x
  | _, divide left right => left.value x / right.value x
  | _, powerLeft _ base exponent | _, powerRight _ base exponent =>
    BinaryOperation.raise (base.value x) (exponent.value x)
  | _, negate operand => -operand.value x
  | _, numeral number => number.value
  | _, letter => x
  | _, call operation _ argument => operation.apply (argument.value x)
  | _, logarithm argument base => (argument.value x).log / (base.value x).log
  | _, ofProduct inner | _, ofPower inner | _, ofSigned inner | _, ofAtom inner
  | _, group inner => inner.value x

/-- The tokens of a derivation write its tree, with operators as strong as its phrase. -/
theorem rendering {phrase : Phrase} (e : Derivation respecting phrase) :
    Postfix.Rendering respecting phrase.binding e.tree e.tokens := by
  -- A phrase binds as strongly as the operators that it is made with.
  induction e with
  | add _ _ left right | subtract _ _ left right | multiply _ _ left right
  | divide _ _ left right =>
    cases respecting <;> exact .binary rfl (Nat.le_refl _) left right
  -- The operands of a power change their roles with the side it is grouped from.
  | powerLeft grouping _ _ base exponent =>
    cases respecting with
    | false => exact .binary rfl (Nat.le_refl _) base exponent
    | true => cases grouping
  | powerRight grouping _ _ base exponent =>
    cases respecting with
    | true => exact .binary rfl (Nat.le_refl _) base exponent
    | false => cases grouping
  | negate _ operand =>
    refine .sign rfl (Nat.le_refl _) (operand.mono ?_)
    cases respecting <;> decide
  | ofProduct _ inner | ofPower _ inner | ofSigned _ inner | ofAtom _ inner =>
    exact inner.mono (by decide)
  | numeral | letter => exact .leaf rfl
  | call _ _ _ argument => exact .callOne rfl rfl rfl (argument.mono (Nat.zero_le _))
  | logarithm _ _ argument base =>
    exact .callTwo rfl rfl rfl rfl (argument.mono (Nat.zero_le _)) (base.mono (Nat.zero_le _))
  | group _ inner => exact .group rfl rfl (inner.mono (Nat.zero_le _))

/-- The tree of a derivation has the value of the derivation. -/
theorem value?_tree {phrase : Phrase} (e : Derivation respecting phrase) (x : Float) :
    e.tree.value? (some x) = some (e.value x) := by
  -- The operation of a token is looked up by its symbol, and applied to the values below.
  induction e with
  | add _ _ left right | subtract _ _ left right | multiply _ _ left right
  | divide _ _ left right | powerLeft _ _ _ left right | powerRight _ _ _ left right
  | logarithm _ _ left right =>
    simp only [tree, TokenTree.value?, Token.sign, Token.named, Operation.ofSymbol?_symbol,
      TokenTree.values?, left, right, Option.bind_some, Option.map_some]
    rfl
  | negate _ inner | call _ _ _ inner =>
    simp only [tree, TokenTree.value?, Token.sign, Token.named, Operation.ofSymbol?_symbol,
      TokenTree.values?, inner, Option.bind_some, Option.map_some]
    rfl
  | numeral number =>
    -- A written number is not the variable, and is read as it is written.
    have unnamed : (Token.numeral number).text ≠ Token.variableName := by
      simpa [Token.isVariable, Token.numeral] using (Token.numeral_spelled number).2
    have read : readFloat? (Token.numeral number).text = some number.value :=
      number.readFloat?_characters
    have kind : (Token.numeral number).kind = .literal := rfl
    simp [tree, TokenTree.value?, kind, Token.literalValue?, unnamed, read, value,
      Arithmetic.number]
  | letter => rfl
  | ofProduct _ inner | ofPower _ inner | ofSigned _ inner | ofAtom _ inner | group _ inner =>
    exact inner

/-- Something is written in every derivation. -/
theorem tokens_ne_nil {phrase : Phrase} (e : Derivation respecting phrase) : e.tokens ≠ [] := by
  -- Every step of a derivation writes a token, or leads to one that does.
  induction e with
  | ofProduct _ ih | ofPower _ ih | ofSigned _ ih | ofAtom _ ih => exact ih
  | _ => simp [tokens]

/-- An atom starts an operand. -/
theorem starts (e : Derivation respecting .atom) (rest : List Token) :
    (e.tokens ++ rest).head?.any (·.kind.startsOperand) = true := by
  -- Every atom shows in its first token.
  cases e <;> rfl

/-- The tokens of a derivation may stand where an operand is awaited. -/
theorem wellPlaced {policy : ConflictPolicy} {phrase : Phrase} (e : Derivation respecting phrase) :
    ∀ {previous : Option Token} {rest : List Token},
      previous.all (·.kind.awaitsOperand) = true → Continues policy rest →
        WellPlaced policy previous (e.tokens ++ rest) := by
  -- What follows a part of a derivation is itself well placed after any operand.
  induction e with
  | add _ _ left right | subtract _ _ left right | multiply _ _ left right
  | divide _ _ left right | powerLeft _ _ _ left right | powerRight _ _ _ left right =>
    intro previous rest awaits continues
    simp only [tokens, List.append_assoc, List.cons_append]
    exact left awaits (.sign nofun (right rfl continues))
  | negate operand inner =>
    intro previous rest awaits continues
    -- The sign has an atom after it, wherever it stands.
    have unary : previous = none ∨ previous.any (·.kind.awaitsOperand) = true ∧
        (operand.tokens ++ rest).head?.any (·.kind.startsOperand) = true := by
      cases previous with
      | none => exact .inl rfl
      | some token => exact .inr ⟨awaits, operand.starts rest⟩
    have listed : (Token.sign (.unary .neg)).text ∈
        ["+", "-", "*", "/", "^", Operation.unaryMinus] := by decide
    refine ⟨⟨listed, fun _ binary => ?_, fun _ => unary, nofun, nofun, nofun⟩,
      inner rfl continues⟩
    exact absurd binary (by decide)
  | numeral number =>
    intro previous rest awaits continues
    exact continues.literal awaits rfl (Token.numeral_spelled number).1
  | letter =>
    intro previous rest awaits continues
    exact continues.literal awaits rfl (.inl rfl)
  | call operation named argument inner =>
    intro previous rest awaits continues
    -- All operations on one operand but the sign are written with names.
    have known : (Operation.unary operation).precedence = 0 := by
      cases operation <;> first | rfl | exact absurd rfl named
    simp only [tokens, List.cons_append, List.append_assoc]
    exact .call awaits known (inner rfl continues.closing)
  | logarithm _ _ argument base =>
    intro previous rest awaits continues
    simp only [tokens, List.cons_append, List.append_assoc]
    exact .call awaits rfl (argument rfl (.separator (base rfl continues.closing)))
  | group inner ih =>
    intro previous rest awaits continues
    refine ⟨⟨rfl, nofun, nofun, nofun, nofun, nofun⟩, ?_⟩
    simpa [tokens] using ih rfl continues.closing
  | ofProduct _ inner | ofPower _ inner | ofSigned _ inner | ofAtom _ inner => exact inner

/-- What a derivation spells is read as its tokens, under either policy. -/
theorem tokenizeChars_spell {policy : ConflictPolicy} (e : Derivation respecting .sum) :
    tokenizeChars policy true (spell e.tokens) = .ok e.tokens := by
  -- A derivation is well placed where nothing comes before it, and nothing after.
  have placed : WellPlaced policy none (e.tokens ++ []) := e.wellPlaced rfl .nil
  rw [List.append_nil] at placed
  exact (tokenizeChars_eq_ok_iff_wellPlaced policy _ e.tokens).mpr ⟨e.tokens_ne_nil, rfl, placed⟩

end Derivation

end Formula
