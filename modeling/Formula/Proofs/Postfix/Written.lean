import Formula.Proofs.Postfix.Conversion

/-! Written trees: with parentheses wherever an operand would be lost, tokens keep their tree. -/

namespace Formula

/-- The operations of a formula and what they are applied to, however they are written. -/
inductive SyntaxTree where
  | literal (text : String)
  | binary (symbol : String) (unsigned : symbol ≠ Operation.unaryMinus) (left right : SyntaxTree)
  | negation (operand : SyntaxTree)
  | call (name : String) (arguments : List SyntaxTree)

namespace SyntaxTree

mutual

/-- The tree of the tokens that stand for the parts of a tree. -/
def tokenTree : SyntaxTree → TokenTree
  | literal text => .node ⟨text, .literal⟩ []
  | binary symbol _ left right => .node ⟨symbol, .operator⟩ [left.tokenTree, right.tokenTree]
  | negation operand => .node ⟨Operation.unaryMinus, .operator⟩ [operand.tokenTree]
  | call name arguments => .node ⟨name, .function⟩ (tokenTrees arguments)

/-- The trees of the tokens of a row of trees. -/
def tokenTrees : List SyntaxTree → List TokenTree
  | [] => []
  | tree :: rest => tree.tokenTree :: tokenTrees rest

end

/-- Every tree of a row has its own tree of tokens. -/
theorem tokenTrees_eq_map (trees : List SyntaxTree) : tokenTrees trees = trees.map tokenTree := by
  -- The two functions are defined together; only a row has to be gone through here.
  induction trees with
  | nil => rfl
  | cons tree rest ih => rw [tokenTrees, ih, List.map_cons]

/-- The tokens of a tree in postfix order. -/
def postorder (tree : SyntaxTree) : List Token :=
  tree.tokenTree.postorder

/-- The operator that holds a tree together; literals and calls need none. -/
def operator? : SyntaxTree → Option String
  | binary symbol .. => some symbol
  | negation _ => some Operation.unaryMinus
  | literal _ | call .. => none

/-- Only powers and signs group from the right, and only where associativity is respected. -/
def groupsRight (respecting : Bool) (symbol : String) : Bool :=
  respecting && (symbol == "^" || symbol == Operation.unaryMinus)

/-- On the left of an operator, what binds as strongly may stand bare if that groups from there. -/
def StandsLeft (respecting : Bool) (symbol : String) (operand : SyntaxTree) : Prop :=
  ∀ inner, operand.operator? = some inner →
    Operation.precedenceOf symbol < Operation.precedenceOf inner ∨
      Operation.precedenceOf symbol = Operation.precedenceOf inner ∧
        groupsRight respecting symbol = false

/-- On the right of an operator, what binds as strongly may stand bare if that groups from there. -/
def StandsRight (respecting : Bool) (symbol : String) (operand : SyntaxTree) : Prop :=
  ∀ inner, operand.operator? = some inner →
    Operation.precedenceOf symbol < Operation.precedenceOf inner ∨
      Operation.precedenceOf symbol = Operation.precedenceOf inner ∧
        groupsRight respecting symbol = true

/-- An argument after the first one of a call: its tree, how it is written, and its comma. -/
structure Argument where
  comma : Token
  tree : SyntaxTree
  bare : Bool
  tokens : List Token

/-- The argument with its tree of tokens. -/
def Argument.rendered (argument : Argument) : Postfix.Argument :=
  ⟨argument.comma, argument.tree.tokenTree, argument.tokens⟩

/--
Tokens that write a tree, bare or between parentheses.

Any tree may be put between parentheses, as often as one likes. An operand has to be where it could
not stand bare, and arguments of calls never have to be.
-/
inductive Written (respecting : Bool) : (bare : Bool) → SyntaxTree → List Token → Prop where
  | literal (text : String) : Written respecting true (.literal text) [⟨text, .literal⟩]
  | enclosed {bare : Bool} {tree : SyntaxTree} {tokens : List Token} {opening closing : Token}
      (opens : opening.kind = .leftParen) (closes : closing.kind = .rightParen)
      (inner : Written respecting bare tree tokens) :
      Written respecting false tree (opening :: (tokens ++ [closing]))
  | binary {symbol : String} {unsigned : symbol ≠ Operation.unaryMinus} {left right : SyntaxTree}
      {bareLeft bareRight : Bool} {tokens others : List Token}
      (before : Written respecting bareLeft left tokens)
      (after : Written respecting bareRight right others)
      (standsLeft : bareLeft = true → left.StandsLeft respecting symbol)
      (standsRight : bareRight = true → right.StandsRight respecting symbol) :
      Written respecting true (.binary symbol unsigned left right)
        (tokens ++ ⟨symbol, .operator⟩ :: others)
  | negation {operand : SyntaxTree} {bare : Bool} {tokens : List Token}
      (inner : Written respecting bare operand tokens)
      (stands : bare = true → operand.StandsRight respecting Operation.unaryMinus) :
      Written respecting true (.negation operand) (⟨Operation.unaryMinus, .operator⟩ :: tokens)
  | callNone {name : String} {opening closing : Token} (opens : opening.kind = .leftParen)
      (closes : closing.kind = .rightParen) :
      Written respecting true (.call name []) [⟨name, .function⟩, opening, closing]
  | call {name : String} {opening closing : Token} {first : SyntaxTree} {bare : Bool}
      {tokens : List Token} {others : List Argument} (opens : opening.kind = .leftParen)
      (closes : closing.kind = .rightParen)
      (commas : ∀ argument ∈ others, argument.comma.kind = .comma)
      (inner : Written respecting bare first tokens)
      (further : ∀ argument ∈ others, Written respecting argument.bare argument.tree
        argument.tokens) :
      Written respecting true (.call name (first :: others.map Argument.tree))
        (⟨name, .function⟩ :: opening ::
          (tokens ++ others.flatMap (fun argument => argument.comma :: argument.tokens) ++
            [closing]))

/-- The table lets exactly the powers and signs group from the right. -/
theorem groupsRight_eq (respecting : Bool) (symbol : String) :
    Postfix.groupsRight respecting ⟨symbol, .operator⟩ = groupsRight respecting symbol := by
  -- Whatever the table says of a symbol, it says of the operation with that symbol.
  unfold Postfix.groupsRight groupsRight Operation.associativityOf
  cases found : Operation.ofSymbol? symbol with
  | none =>
    have unlisted : ∀ operation : Operation, operation.symbol ≠ symbol := by
      rintro operation rfl
      simp at found
    have noPower : symbol ≠ "^" := (unlisted (.binary .power)).symm
    have noSign : symbol ≠ Operation.unaryMinus := (unlisted (.unary .neg)).symm
    rw [beq_false_of_ne noPower, beq_false_of_ne noSign]
    cases respecting <;> rfl
  | some operation =>
    obtain rfl := Operation.ofSymbol?_eq_some_iff.mp found
    cases respecting <;> rcases operation with operation | operation <;> cases operation <;> rfl

/-- What may stand bare on the left of an operator binds as strongly as that side asks for. -/
theorem StandsLeft.bound {respecting : Bool} {symbol inner : String} {operand : SyntaxTree}
    (stands : operand.StandsLeft respecting symbol) (outer : operand.operator? = some inner) :
    Postfix.leftBound respecting ⟨symbol, .operator⟩ ≤ Operation.precedenceOf inner := by
  -- Operators of the same strength are left out if they group from the right.
  unfold Postfix.leftBound
  rw [groupsRight_eq]
  rcases stands inner outer with stronger | ⟨equal, groups⟩
  · split <;> dsimp only <;> omega
  · rw [if_neg (by simp [groups])]
    exact Nat.le_of_eq equal

/-- What may stand bare on the right of an operator binds as strongly as that side asks for. -/
theorem StandsRight.bound {respecting : Bool} {symbol inner : String} {operand : SyntaxTree}
    (stands : operand.StandsRight respecting symbol) (outer : operand.operator? = some inner) :
    Postfix.rightBound respecting ⟨symbol, .operator⟩ ≤ Operation.precedenceOf inner := by
  -- Operators of the same strength are left out if they group from the left.
  unfold Postfix.rightBound
  rw [groupsRight_eq]
  rcases stands inner outer with stronger | ⟨equal, groups⟩
  · split <;> dsimp only <;> omega
  · rw [if_pos groups]
    exact Nat.le_of_eq equal

/-- A written tree is rendered with operators as strong as the one that holds it together. -/
theorem Written.rendering {respecting bare : Bool} {tree : SyntaxTree} {tokens : List Token}
    (written : Written respecting bare tree tokens) :
    ∀ least, (bare = true → ∀ symbol, tree.operator? = some symbol →
      least ≤ Operation.precedenceOf symbol) →
        Postfix.Rendering respecting least tree.tokenTree tokens := by
  -- The induction is on how the tree is written; between parentheses every operator is allowed.
  induction written with
  | literal text => exact fun _ _ => .leaf rfl
  | enclosed opens closes _ ih =>
    exact fun _ _ => .group opens closes (ih 0 fun _ _ _ => Nat.zero_le _)
  | binary _ _ standsLeft standsRight ihBefore ihAfter =>
    intro least strong
    exact .binary rfl (strong rfl _ rfl)
      (ihBefore _ fun bare inner outer => (standsLeft bare).bound outer)
      (ihAfter _ fun bare inner outer => (standsRight bare).bound outer)
  | negation _ stands ih =>
    intro least strong
    exact .sign rfl (strong rfl _ rfl) (ih _ fun bare inner outer => (stands bare).bound outer)
  | callNone opens closes => exact fun _ _ => .bare rfl opens closes
  | @call name opening closing first bare tokens others opens closes commas _ _ ih ihFurther =>
    intro least _
    -- Commas and arguments keep their properties when trees are put for them.
    have separated : ∀ argument ∈ others.map Argument.rendered, argument.comma.kind = .comma := by
      rw [List.forall_mem_map]
      exact commas
    have rendered : ∀ argument ∈ others.map Argument.rendered,
        Postfix.Rendering respecting 0 argument.tree argument.tokens := by
      rw [List.forall_mem_map]
      exact fun argument member => ihFurther argument member 0 fun _ _ _ => Nat.zero_le _
    have function : (Token.mk name .function).kind = .function := rfl
    have whole : Postfix.Rendering respecting least _ _ :=
      .call function opens closes separated (ih 0 fun _ _ _ => Nat.zero_le _) rendered
    simpa [tokenTree, tokenTrees, tokenTrees_eq_map, Argument.rendered, List.flatMap_map,
      Function.comp_def] using whole

/-- However a tree is written, its tokens are put into the postfix order of the tree. -/
theorem order_written {respecting bare : Bool} {tree : SyntaxTree} {tokens : List Token}
    (written : Written respecting bare tree tokens) :
    Postfix.order respecting tokens = .ok tree.postorder :=
  -- Nothing is outside the whole tree, so that the least strength asked for is zero.
  Postfix.order_rendering (written.rendering 0 fun _ _ _ => Nat.zero_le _)

/-- A tower of powers over a number with two signs, and a sum with a call on top. -/
def tower : SyntaxTree :=
  .binary "^" nofun (.negation (.negation (.literal "a")))
    (.binary "^" nofun (.literal "b") (.binary "+" nofun (.call "f" []) (.literal "c")))

/-- The tower with parentheses around its sum only. -/
def towerTokens : List Token :=
  [⟨"unary_minus", .operator⟩, ⟨"unary_minus", .operator⟩, ⟨"a", .literal⟩, ⟨"^", .operator⟩,
    ⟨"b", .literal⟩, ⟨"^", .operator⟩, ⟨"(", .leftParen⟩, ⟨"f", .function⟩, ⟨"(", .leftParen⟩,
    ⟨")", .rightParen⟩, ⟨"+", .operator⟩, ⟨"c", .literal⟩, ⟨")", .rightParen⟩]

/-- Where powers group from the right, the tower needs no more parentheses. -/
theorem written_tower : Written true true tower towerTokens := by
  -- Literals and calls have no operator that could be lost.
  have alone : ∀ {operand : SyntaxTree}, operand.operator? = none → ∀ {symbol},
      operand.StandsLeft true symbol ∧ operand.StandsRight true symbol := by
    intro operand none symbol
    constructor <;> intro inner outer <;> rw [none] at outer <;> cases outer
  have call : Written true true (.call "f" [])
      [⟨"f", .function⟩, ⟨"(", .leftParen⟩, ⟨")", .rightParen⟩] := .callNone rfl rfl
  -- A sum is weaker than a power, so that it stands between parentheses.
  have sum : Written true false (.binary "+" nofun (.call "f" []) (.literal "c"))
      (⟨"(", .leftParen⟩ :: (_ ++ [⟨")", .rightParen⟩])) :=
    .enclosed rfl rfl (.binary call (.literal "c") (fun _ => (alone rfl).1) fun _ => (alone rfl).2)
  have power : Written true true (.binary "^" nofun (.literal "b") _) _ :=
    .binary (.literal "b") sum (fun _ => (alone rfl).1) nofun
  have sign : Written true true (.negation (.literal "a")) _ :=
    .negation (.literal "a") fun _ => (alone rfl).2
  -- Signs group from the right, so that one may stand bare after another.
  have stacked : (negation (.literal "a")).StandsRight true Operation.unaryMinus := by
    intro inner outer
    cases outer
    exact .inr ⟨rfl, rfl⟩
  have signs : Written true true (.negation (.negation (.literal "a"))) _ :=
    .negation sign fun _ => stacked
  -- The signs bind more strongly than the powers, and the powers group from the right.
  refine .binary signs power (fun _ inner outer => ?_) fun _ inner outer => ?_
  · cases outer
    exact .inl (by decide)
  · cases outer
    exact .inr ⟨rfl, rfl⟩

/-- The tower is put into its postfix order. -/
theorem order_written_tower :
    Written true true tower towerTokens ∧
      Postfix.order true towerTokens = .ok tower.postorder ∧
        tower.postorder.map Token.text =
          ["a", "unary_minus", "unary_minus", "b", "f", "c", "+", "^", "^"] :=
  ⟨written_tower, order_written written_tower, by decide⟩

end SyntaxTree

end Formula
