import Formula.Proofs.Grammar.Acceptance
import Formula.Proofs.Postfix.Enclosure

/-! Texts with values are combined by operations, and the combined text has the combined value. -/

namespace Formula

variable {policy : ConflictPolicy}

/-- Blanks are left out of one part of a text and of the other. -/
theorem Text.withoutBlanks_append (front back : List Char) :
    Text.withoutBlanks (front ++ back) = Text.withoutBlanks front ++ Text.withoutBlanks back :=
  -- Each character is kept or left out by itself.
  List.filter_append ..

/-- No tokens are spelled by no characters. -/
theorem spell_nil : spell [] = [] :=
  rfl

/-- A token is spelled before those after it. -/
theorem spell_cons (token : Token) (rest : List Token) :
    spell (token :: rest) = token.lexeme ++ spell rest :=
  List.flatMap_cons

/-- Two rows of tokens are spelled one after the other. -/
theorem spell_append (front back : List Token) :
    spell (front ++ back) = spell front ++ spell back :=
  List.flatMap_append

/-- Before what opens no parenthesis, a last token obeys the rules as it does at the end. -/
theorem Placed.ofLast {previous token : Token} (placed : Placed policy (some previous) token none)
    {next : Option Token} (shut : next.any (·.kind == .leftParen) = false) :
    Placed policy (some previous) token next := by
  -- A sign or a function would have asked for a token after it.
  refine ⟨placed.spelled, placed.binary, fun unary => ?_, fun kind => ?_, placed.literal,
    fun _ _ call => ?_⟩
  · rcases placed.unary unary with first | ⟨-, started⟩
    · cases first
    · cases started
  · cases (placed.function kind).2
  · rw [shut] at call
    cases call

/-- A row that ends where it may is continued with what may come after any token. -/
theorem WellPlaced.append {rest : List Token}
    (shut : rest.head?.any (·.kind == .leftParen) = false)
    (after : ∀ last : Token, WellPlaced policy (some last) rest) {tokens : List Token} :
    ∀ {previous : Token}, WellPlaced policy (some previous) tokens →
      WellPlaced policy (some previous) (tokens ++ rest) := by
  -- Only the last token of the row has another one after it than before.
  induction tokens with
  | nil => exact fun {previous} _ => after previous
  | cons token others ih =>
    rintro previous ⟨first, placed⟩
    refine ⟨?_, ih placed⟩
    -- A token within the row keeps the one after it, and the last one gets a new one.
    cases others with
    | nil => exact first.ofLast shut
    | cons next more => exact first

/-- An opening parenthesis may stand anywhere. -/
theorem WellPlaced.opening {rest : List Token} (placed : WellPlaced policy (some .opening) rest)
    (previous : Option Token) : WellPlaced policy previous (.opening :: rest) :=
  -- No rule is about an opening parenthesis.
  ⟨⟨rfl, nofun, nofun, nofun, nofun, nofun⟩, placed⟩

/-- A row that may stand after some token may be followed by a closing parenthesis or a comma. -/
theorem WellPlaced.before {mark : Token} (marks : mark = .closing ∨ mark = .separator)
    {tokens rest : List Token} {previous : Token}
    (placed : WellPlaced policy (some previous) tokens)
    (later : WellPlaced policy (some mark) rest) :
    WellPlaced policy (some previous) (tokens ++ mark :: rest) := by
  -- No rule is about such a mark, and it opens no parenthesis.
  have free (last : Token) : Placed policy (some last) mark rest.head? := by
    rcases marks with rfl | rfl <;> exact ⟨rfl, nofun, nofun, nofun, nofun, nofun⟩
  have shut : (mark :: rest).head?.any (·.kind == .leftParen) = false := by
    rcases marks with rfl | rfl <;> rfl
  exact .append shut (fun last => ⟨free last, later⟩) placed

/-- Nothing has to come after the closing parenthesis. -/
theorem WellPlaced.closed {tokens : List Token} {previous : Token}
    (placed : WellPlaced policy (some previous) tokens) :
    WellPlaced policy (some previous) (tokens ++ [.closing]) := by
  -- The row may end after the parenthesis.
  have ended : WellPlaced policy (some .closing) [] := trivial
  exact placed.before (.inl rfl) ended

namespace Expression

/-- Under the settings as they are, a text is read, and has a value at a number. -/
def Yields (text : String) (x value : Float) : Prop :=
  ∃ e : Expression, ofText {} {} text = .ok e ∧ e.evaluate (some x) = .ok value

/-- With its operators grouped as chosen, a text is read, and has a value at a number. -/
def YieldsGrouped (grouping : Option Bool) (text : String) (x value : Float) : Prop :=
  ∃ e : Expression, ofText {} { respectAssociativity := grouping } text = .ok e ∧
    e.evaluate (some x) = .ok value

/-- Tokens that may stand where an operand is awaited, and that are those of a tree with a value. -/
structure Part (x : Float) (tokens : List Token) (tree : TokenTree) (value : Float) : Prop where
  placed : ∀ previous : Token, previous.kind.awaitsOperand = true →
    WellPlaced .strict (some previous) tokens
  ordered : Postfix.order false tokens = .ok tree.postorder
  valued : tree.value? (some x) = some value

variable {x : Float}

/-- The tokens of a text with a value may be a part of others. -/
theorem Yields.exists_part {text : String} {value : Float} (yields : Yields text x value) :
    ∃ tokens tree, spell tokens = Text.withoutBlanks text.toList ∧ Part x tokens tree value := by
  -- The value comes from a tree, whose tokens are those that the text was read as.
  obtain ⟨e, read, evaluated⟩ := yields
  obtain ⟨lexed, ordered⟩ := ofText_eq_ok read
  obtain ⟨-, spelled, placed⟩ := (tokenizeChars_eq_ok_iff_wellPlaced ..).mp lexed
  obtain ⟨tree, formed, order, valued⟩ :=
    TokenTree.exists_of_evaluate (evaluate_eq_ok_iff.mp evaluated)
  rw [← order] at ordered
  -- A sign at the start of the text is one of a tree, and has an operand.
  have signed : ∀ rest, e.tokens = .sign (.unary .neg) :: rest →
      rest.head?.any (·.kind.startsOperand) = true := by
    intro rest starts
    rw [starts] at ordered
    exact formed.signed ordered
  exact ⟨e.tokens, tree, spelled, fun previous awaits => placed.within signed awaits, ordered,
    valued⟩

/-- A text has the value of the tree whose postorder its tokens are converted to. -/
theorem yieldsGrouped_of_order {grouping : Option Bool} (tree : TokenTree) {text : String}
    {tokens : List Token} {value : Float}
    (spelled : spell tokens = Text.withoutBlanks text.toList) (nonempty : tokens ≠ [])
    (placed : WellPlaced .strict none tokens)
    (ordered : Postfix.order (({} : Settings).respectsAssociativity grouping) tokens =
      .ok tree.postorder)
    (valued : tree.value? (some x) = some value) : YieldsGrouped grouping text x value := by
  -- The settings as they are choose the strict policy, whatever the grouping is.
  have chosen : ({} : Settings).policyFor { respectAssociativity := grouping } = .ok .strict := rfl
  have read := tokenize_of_wellPlaced chosen nonempty spelled placed
  refine ⟨⟨text, tokens, tree.postorder⟩, ?_, ?_⟩
  · simp [ofText, read, order, ordered, Except.map]
  · exact evaluate_eq_ok_iff.mpr (TokenTree.evaluate_postorder valued)

/-- A text has the value of a tree also where operators group from the left. -/
theorem yields_of_order (tree : TokenTree) {text : String} {tokens : List Token} {value : Float}
    (spelled : spell tokens = Text.withoutBlanks text.toList) (nonempty : tokens ≠ [])
    (placed : WellPlaced .strict none tokens)
    (ordered : Postfix.order false tokens = .ok tree.postorder)
    (valued : tree.value? (some x) = some value) : Yields text x value :=
  -- By default, operators group from the left.
  yieldsGrouped_of_order tree spelled nonempty placed ordered valued

/-- An operation is spelled by its symbol, which has no blanks, and a sign by a minus sign. -/
theorem lexeme_operation :
    (∀ operation : BinaryOperation, operation ≠ .log →
      (Token.sign (.binary operation)).lexeme =
        Text.withoutBlanks (Operation.binary operation).symbol.toList) ∧
    (Token.sign (.unary .neg)).lexeme = Text.withoutBlanks "-".toList ∧
    (∀ operation : UnaryOperation, operation ≠ .neg →
      (Token.named (.unary operation)).lexeme =
        Text.withoutBlanks (Operation.unary operation).symbol.toList) ∧
    (Token.named (.binary .log)).lexeme = Text.withoutBlanks "log".toList := by
  -- The table of operations is finite.
  refine ⟨fun operation known => ?_, by decide, fun operation named => ?_, by decide⟩
  · cases operation <;> first | exact absurd rfl known | decide
  · cases operation <;> first | exact absurd rfl named | decide

/-- The marks around operands are spelled by themselves. -/
theorem lexeme_mark :
    Token.opening.lexeme = Text.withoutBlanks "(".toList ∧
      Token.closing.lexeme = Text.withoutBlanks ")".toList ∧
        Token.separator.lexeme = Text.withoutBlanks ",".toList := by
  -- The three marks have one character each.
  decide

section Combinations

variable {tokens others : List Token} {tree other : TokenTree} {value second : Float}

/-- A binary operator between two parts in parentheses has both values as its operands. -/
theorem Part.combine {operation : BinaryOperation} (known : operation ≠ .log)
    (left : Part x tokens tree value) (right : Part x others other second) {text : String}
    (spelled : spell (.opening :: (tokens ++ .closing :: .sign (.binary operation) :: .opening ::
      (others ++ [.closing]))) = Text.withoutBlanks text.toList) :
    Yields text x (operation.apply value second) := by
  -- The operator stands between two parts in parentheses.
  refine yields_of_order (.node (.sign (.binary operation)) [tree, other]) spelled
    (List.cons_ne_nil _ _) ?_ ?_ ?_
  · have after : WellPlaced .strict (some (.sign (.binary operation)))
        (.opening :: (others ++ [.closing])) :=
      .opening ((right.placed .opening rfl).closed) _
    exact .opening (.before (.inl rfl) (left.placed .opening rfl)
      ((Continues.sign known after).2 .closing rfl)) none
  · -- The operator waits below the second pair of parentheses, where no function waits.
    have before : Postfix.Moves false [] (.opening :: (tokens ++ [.closing]))
        (tree.postorder ++ []) [] := .enclosed left.ordered rfl rfl rfl
    have push : Postfix.Moves false ([] ++ []) [.sign (.binary operation)] []
        [.sign (.binary operation)] := .operator rfl nofun nofun
    have after : Postfix.Moves false [.sign (.binary operation)]
        (.opening :: (others ++ [.closing])) (other.postorder ++ []) [.sign (.binary operation)] :=
      .enclosed right.ordered rfl rfl rfl
    have ordered := ((before.trans push).trans after).order (by simp [Token.sign])
    simpa [TokenTree.postorder, TokenTree.postorders] using ordered
  · rw [TokenTree.value?_operation (.inl rfl) (Operation.ofSymbol?_symbol (.binary operation))]
    simp only [TokenTree.values?, left.valued, right.valued, Option.bind_some, Option.map_some]
    rfl

/-- A sign before a part in parentheses has its value as its operand. -/
theorem Part.negate (part : Part x tokens tree value) {text : String}
    (spelled : spell (.sign (.unary .neg) :: .opening :: (tokens ++ [.closing])) =
      Text.withoutBlanks text.toList) :
    Yields text x (-value) := by
  -- The sign is the first token, and an opening parenthesis comes after it.
  refine yields_of_order (.node (.sign (.unary .neg)) [tree]) spelled
    (List.cons_ne_nil _ _) ?_ ?_ ?_
  · -- At the start, a sign is asked for nothing else.
    have listed : (Token.sign (.unary .neg)).text ∈
        ["+", "-", "*", "/", "^", Operation.unaryMinus] := by decide
    refine ⟨⟨listed, fun _ binary => absurd binary (by decide), fun _ => .inl rfl, nofun, nofun,
      nofun⟩, .opening (part.placed .opening rfl).closed _⟩
  · -- The sign waits until the parentheses are closed.
    have push : Postfix.Moves false ([] ++ []) [.sign (.unary .neg)] [] [.sign (.unary .neg)] :=
      .operator rfl nofun nofun
    have after : Postfix.Moves false [.sign (.unary .neg)] (.opening :: (tokens ++ [.closing]))
        (tree.postorder ++ []) [.sign (.unary .neg)] := .enclosed part.ordered rfl rfl rfl
    have ordered := (push.trans after).order (by simp [Token.sign])
    simpa [TokenTree.postorder, TokenTree.postorders] using ordered
  · rw [TokenTree.value?_operation (.inl rfl) (Operation.ofSymbol?_symbol (.unary .neg))]
    simp only [TokenTree.values?, part.valued, Option.bind_some, Option.map_some]
    rfl

/-- A function of one argument has the value of the part in its parentheses as its operand. -/
theorem Part.call {operation : UnaryOperation} (named : operation ≠ .neg)
    (part : Part x tokens tree value) {text : String}
    (spelled : spell (.named (.unary operation) :: .opening :: (tokens ++ [.closing])) =
      Text.withoutBlanks text.toList) :
    Yields text x (operation.apply value) := by
  -- A function binds its parentheses, and has no precedence of its own.
  have known : (Operation.unary operation).precedence = 0 := by
    cases operation <;> first | rfl | exact absurd rfl named
  refine yields_of_order (.node (.named (.unary operation)) [tree]) spelled
    (List.cons_ne_nil _ _) ?_ ?_ ?_
  · exact .call rfl known (part.placed .opening rfl).closed
  · -- The function is emitted when its parentheses are closed.
    have push : Postfix.Moves false [] [.named (.unary operation)] [] [.named (.unary operation)] :=
      .function rfl []
    have after : Postfix.Moves false [.named (.unary operation)]
        (.opening :: (tokens ++ [.closing])) (tree.postorder ++ [.named (.unary operation)]) [] :=
      .enclosed part.ordered rfl rfl rfl
    have ordered := (push.trans after).order nofun
    simpa [TokenTree.postorder, TokenTree.postorders] using ordered
  · rw [TokenTree.value?_operation (.inr rfl) (Operation.ofSymbol?_symbol (.unary operation))]
    simp only [TokenTree.values?, part.valued, Option.bind_some, Option.map_some]
    rfl

/-- The logarithm of one part to the base of another is that of their values. -/
theorem Part.logarithm (left : Part x tokens tree value) (right : Part x others other second)
    {text : String}
    (spelled : spell (.named (.binary .log) :: .opening ::
      (tokens ++ .separator :: (others ++ [.closing]))) = Text.withoutBlanks text.toList) :
    Yields text x (BinaryOperation.log.apply value second) := by
  -- The arguments stand in one pair of parentheses, with a comma between them.
  refine yields_of_order (.node (.named (.binary .log)) [tree, other]) spelled
    (List.cons_ne_nil _ _) ?_ ?_ ?_
  · exact .call rfl rfl (.before (.inr rfl) (left.placed .opening rfl)
      (right.placed .separator rfl).closed)
  · -- The comma leaves the parenthesis open for the second argument.
    have push : Postfix.Moves false [] [.named (.binary .log), .opening] []
        [.opening, .named (.binary .log)] :=
      (Postfix.Moves.function rfl []).trans (.leftParen rfl _)
    have before : Postfix.Moves false [.opening, .named (.binary .log)] (tokens ++ [.separator])
        tree.postorder [.opening, .named (.binary .log)] := .separated left.ordered rfl rfl _
    have after : Postfix.Moves false [.opening, .named (.binary .log)] (others ++ [.closing])
        (other.postorder ++ [.named (.binary .log)]) [] := .closed right.ordered rfl rfl rfl
    have ordered := ((push.trans before).trans after).order nofun
    simpa [TokenTree.postorder, TokenTree.postorders] using ordered
  · rw [TokenTree.value?_operation (.inr rfl) (Operation.ofSymbol?_symbol (.binary .log))]
    simp only [TokenTree.values?, left.valued, right.valued, Option.bind_some, Option.map_some]
    rfl

end Combinations

/--
Texts with values are combined by every operation of the table.

The texts may be any that are read and have a value, also those that no derivation spells. Between
parentheses or as arguments they are read as they are alone, so the combination has the value that
the operation makes of theirs.
-/
theorem yields_combination {first second : String} {v w : Float} (left : Yields first x v)
    (right : Yields second x w) :
    (∀ operation : BinaryOperation, operation ≠ .log →
      Yields ("(" ++ first ++ ")" ++ (Operation.binary operation).symbol ++ "(" ++ second ++ ")") x
        (operation.apply v w)) ∧
    Yields ("-(" ++ first ++ ")") x (-v) ∧
    (∀ operation : UnaryOperation, operation ≠ .neg →
      Yields ((Operation.unary operation).symbol ++ "(" ++ first ++ ")") x (operation.apply v)) ∧
    Yields ("log(" ++ first ++ "," ++ second ++ ")") x (BinaryOperation.log.apply v w) := by
  -- Both texts have their tokens and trees, which become parts of the combination.
  obtain ⟨tokens, tree, spelled, part⟩ := left.exists_part
  obtain ⟨others, other, spelledOther, partOther⟩ := right.exists_part
  -- The combined tokens spell the combined texts, piece by piece.
  obtain ⟨binary, minus, function, logarithm⟩ := lexeme_operation
  obtain ⟨opening, closing, separator⟩ := lexeme_mark
  have minusOpening : "-(" = "-" ++ "(" := rfl
  have logarithmOpening : "log(" = "log" ++ "(" := rfl
  refine ⟨fun operation known => part.combine known partOther ?_, part.negate ?_,
    fun operation named => part.call named ?_, part.logarithm partOther ?_⟩
  · simp only [String.toList_append, Text.withoutBlanks_append, spell_cons, spell_append, spell_nil,
      spelled, spelledOther, opening, closing, binary _ known, List.append_assoc, List.append_nil]
  · simp only [minusOpening, String.toList_append, Text.withoutBlanks_append, spell_cons,
      spell_append, spell_nil, spelled, opening, closing, minus, List.append_assoc,
      List.append_nil]
  · simp only [String.toList_append, Text.withoutBlanks_append, spell_cons, spell_append, spell_nil,
      spelled, opening, closing, function _ named, List.append_assoc, List.append_nil]
  · simp only [logarithmOpening, String.toList_append, Text.withoutBlanks_append, spell_cons,
      spell_append, spell_nil, spelled, spelledOther, opening, closing, separator, logarithm,
      List.append_assoc, List.append_nil]

/-- A text that no derivation spells, and the variable, are combined by operations. -/
theorem yields_combination_pair :
    ∃ v, Yields "(2,3)+" 1 v ∧ Yields "x" 1 1 ∧ Yields "((2,3)+)*(x)" 1 (v * 1) ∧
      Yields "-((2,3)+)" 1 (-v) ∧ Yields "sin((2,3)+)" 1 v.sin ∧
        Yields "log((2,3)+,x)" 1 (v.log / Float.log 1) := by
  -- The combined texts are those of the general statement, character by character.
  obtain ⟨v, evaluated⟩ := evaluate_pair 1
  have left : Yields "(2,3)+" 1 v := ⟨pair, ofText_pair, evaluated⟩
  have right : Yields "x" 1 1 := ⟨⟨"x", [.letter], [.letter]⟩, rfl, rfl⟩
  obtain ⟨binary, negated, called, logarithm⟩ := yields_combination left right
  exact ⟨v, left, right, binary .mul nofun, negated, called .sin nofun, logarithm⟩

end Expression

end Formula
