import Formula.Proofs.Grammar.Parsing
import Formula.Proofs.Grammar.Readability

/-! What is read and has a value is a loose formula, and is derived unless operands are missing. -/

namespace Formula

/-- Every token of a row that obeys the rules is spelled well. -/
theorem WellPlaced.spelled {policy : ConflictPolicy} {tokens : List Token} :
    ∀ {previous : Option Token}, WellPlaced policy previous tokens →
      ∀ token ∈ tokens, token.Spelled := by
  -- The rules are on one token after the other.
  induction tokens with
  | nil => exact fun _ _ member => nomatch member
  | cons token rest ih =>
    intro previous placed
    exact List.forall_mem_cons.mpr ⟨placed.1.spelled, ih placed.2⟩

/-- A row may as well stand where an operand is awaited, if its first sign has an operand. -/
theorem WellPlaced.within {policy : ConflictPolicy} {tokens : List Token}
    (placed : WellPlaced policy none tokens)
    (signed : ∀ rest, tokens = .sign (.unary .neg) :: rest →
      rest.head?.any (·.kind.startsOperand) = true)
    {previous : Token} (awaits : previous.kind.awaitsOperand = true) :
    WellPlaced policy (some previous) tokens := by
  -- The rules on the first token that ask what comes before it are checked again.
  cases tokens with
  | nil => trivial
  | cons token rest =>
    obtain ⟨first, others⟩ := placed
    have apart : (previous.kind != .literal) = true := by
      cases kind : previous.kind <;> first | rfl | simp [kind, Kind.awaitsOperand] at awaits
    refine ⟨⟨first.spelled, fun kind binary => ?_, fun unary => .inr ⟨awaits, ?_⟩,
      fun kind => ⟨awaits, (first.function kind).2⟩, fun _ => apart, fun strict letter call => ?_⟩,
      others⟩
    · -- A binary operator is not the first token.
      cases first.binary kind binary
    · have isMinus : token = .sign (.unary .neg) := by
        obtain ⟨text, kind⟩ := token
        simp only [Token.isUnaryMinus, Bool.and_eq_true, beq_iff_eq] at unary
        obtain ⟨rfl, rfl⟩ := unary
        rfl
      exact signed rest (by rw [isMinus])
    · -- Neither is the variable, if a parenthesis comes after it.
      cases first.call strict letter call

/-- No operation binds more strongly than a minus sign with a single operand. -/
theorem Operation.precedenceOf_le (text : String) : precedenceOf text ≤ 4 := by
  -- Texts without an operation bind not at all, and the table is finite.
  unfold precedenceOf
  cases ofSymbol? text with
  | none => exact Nat.zero_le 4
  | some operation => rcases operation with operation | operation <;> cases operation <;> decide

/-- A first sign is also the first in postfix order, unless an operand comes after it. -/
theorem Postfix.order_minus {rest ordered : List Token}
    (bare : rest.head?.all (·.kind == .operator) = true)
    (ran : order false (.sign (.unary .neg) :: rest) = .ok ordered) :
    ∃ later, ordered = .sign (.unary .neg) :: later := by
  -- The sign waits alone on the stack, until another operator comes or the tokens end.
  have pushed : step false [] (.sign (.unary .neg)) = .ok ([], [.sign (.unary .neg)]) := rfl
  obtain ⟨ordered, waits, rfl⟩ := orderFrom_of_step pushed ran
  cases rest with
  | nil =>
    cases waits
    exact ⟨[], rfl⟩
  | cons next more =>
    -- Whatever operator comes next, the sign yields to it.
    have kind : next.kind = .operator := by simpa using bare
    have strongest : Operation.precedenceOf (Token.sign (.unary .neg)).text = 4 := rfl
    have yielding : yields false next (.sign (.unary .neg)) = true := by
      have bound := Operation.precedenceOf_le next.text
      simp only [yields, Token.sign] at strongest ⊢
      simp [strongest, bound]
    have stepped : step false [.sign (.unary .neg)] next = .ok ([.sign (.unary .neg)], [next]) := by
      simp [step, kind, List.span_eq_takeWhile_dropWhile, yielding]
    obtain ⟨later, -, rfl⟩ := orderFrom_of_step stepped waits
    exact ⟨later, rfl⟩

/-- The tokens of a well-formed tree, in written order, all mean something. -/
theorem TokenTree.WellFormed.known {policy : ConflictPolicy} {supplied : Bool} {tree : TokenTree}
    (formed : tree.WellFormed supplied) {tokens : List Token}
    (placed : WellPlaced policy none tokens)
    (perm : tree.postorder.Perm (Postfix.kept tokens)) : ∀ token ∈ tokens, token.Known := by
  -- The spelling is checked by the lexer, and the meaning by the evaluation.
  intro token member
  -- Literals and operations are among the tokens of the tree, and are evaluated there.
  have meaning : token.kind.isKept = true →
      (token.kind = .literal → token.text ≠ Token.variableName →
        (readFloat? token.text).isSome) ∧
        (token.kind ≠ .literal → (Operation.ofSymbol? token.text).isSome) := by
    intro isKept
    apply formed.of_mem
    exact perm.mem_iff.mpr (List.mem_filter.mpr ⟨member, isKept⟩)
  apply (placed.spelled token member).known
  · intro kind
    exact (meaning (kind ▸ rfl)).1 kind
  · intro kind isKept
    exact (meaning isKept).2 kind

/-- Where parentheses are balanced, a first sign without an operand has at most operators after. -/
theorem bare_of_balanced {rest : List Token}
    (balanced : Postfix.Balanced 0 (.sign (.unary .neg) :: rest))
    (unled : rest.head?.any (·.kind.startsOperand) = false) :
    rest.head?.all (·.kind == .operator) = true := by
  -- The kinds that start operands are excluded, and so is what would close parentheses.
  cases rest with
  | nil => rfl
  | cons next more =>
    have remaining : Postfix.Balanced 0 (next :: more) := balanced
    -- Neither a closing parenthesis nor a comma may come where none is open.
    cases kind : next.kind with
    | operator => simp [kind]
    | rightParen | comma => simp [Postfix.Balanced, kind] at remaining
    | literal | function | leftParen => simp [kind, Kind.startsOperand] at unled

/-- A first sign has an operand, if the postfix order of its row is that of a tree. -/
theorem TokenTree.WellFormed.signed {supplied : Bool} {tree : TokenTree}
    (formed : tree.WellFormed supplied) {rest : List Token}
    (ordered : Postfix.order false (.sign (.unary .neg) :: rest) = .ok tree.postorder) :
    rest.head?.any (·.kind.startsOperand) = true := by
  -- The first token in postfix order is a literal, and hence no sign without an operand.
  cases starts : rest.head?.any (·.kind.startsOperand) with
  | true => rfl
  | false =>
    exfalso
    have balanced : Postfix.Balanced 0 (.sign (.unary .neg) :: rest) :=
      Postfix.balanced_of_orderFrom ordered
    obtain ⟨later, signFirst⟩ := Postfix.order_minus (bare_of_balanced balanced starts) ordered
    obtain ⟨first, others, order, literal⟩ := formed.literal_first
    rw [order, List.cons.injEq] at signFirst
    rw [signFirst.1] at literal
    cases literal

/-- Tokens that obey the rules, and whose postfix order is that of a tree, spell a loose formula. -/
theorem exists_loose {policy : ConflictPolicy} {supplied : Bool} {tree : TokenTree}
    (formed : tree.WellFormed supplied) {tokens : List Token}
    (placed : WellPlaced policy none tokens)
    (ordered : Postfix.order false tokens = .ok tree.postorder) :
    ∃ formula : Loose .place, formula.tokens = tokens ∧ formula.commas = 0 ∧
      formula.missing = formula.surplus := by
  -- Order, balance and counts are what the conversion and the evaluation have checked.
  have perm : tree.postorder.Perm (Postfix.kept tokens) := by
    have waiting : Postfix.Waiting [] := nofun
    have all := Postfix.perm_of_orderFrom waiting ordered
    rwa [Postfix.kept, Postfix.kept, List.filter_nil, List.append_nil] at all
  have balanced : Postfix.Balanced 0 tokens := Postfix.balanced_of_orderFrom ordered
  have signed : ∀ rest, tokens = .sign (.unary .neg) :: rest →
      rest.head?.any (·.kind.startsOperand) = true := by
    rintro rest rfl
    exact formed.signed ordered
  have pending : Pending policy 0 .opening tokens :=
    ⟨formed.known placed perm, placed.within signed rfl, balanced⟩
  obtain ⟨formula, later, split, closed⟩ := pending.exists_place rfl
  -- Outside of parentheses, everything is read, and no comma is left over.
  have finished : later = [] ∧ formula.commas = 0 := by
    generalize formula.commas = commas at closed
    cases closed
    exact ⟨rfl, rfl⟩
  obtain ⟨rfl, single⟩ := finished
  rw [List.append_nil] at split
  -- The tree leaves one operand, and so do its tokens in any order.
  have one : gain formula.tokens = 1 := by
    rw [← split, ← gain_kept, ← gain_perm perm, formed.gain_postorder]
  have counted := formula.gain_tokens
  simp only [one, single, Stretch.operands] at counted
  exact ⟨formula, split.symm, single, by omega⟩

namespace Expression

/-- Under the settings as they are, a text is read strictly, and its operators group as chosen. -/
theorem stages_of_grouping {grouping : Option Bool} {text : String} {expression : Expression}
    (read : ofText {} { respectAssociativity := grouping } text = .ok expression) :
    tokenizeChars .strict true (Text.withoutBlanks text.toList) = .ok expression.tokens ∧
      Postfix.order (({} : Settings).respectsAssociativity grouping) expression.tokens =
        .ok expression.postfixTokens := by
  -- The settings as they are choose the policy, and only failures are widened.
  have policy : ({} : Settings).policyFor { respectAssociativity := grouping } = .ok .strict := rfl
  have rejecting : ({} : Settings).rejectsUnknown { respectAssociativity := grouping } = true := rfl
  obtain ⟨lexed, sorted⟩ := stages_of_ofText read
  refine ⟨?_, sorted⟩
  simp only [tokenize, policy, rejecting, Formula.tokenize] at lexed
  cases result : tokenizeChars .strict true (Text.withoutBlanks text.toList) with
  | error fault => simp [result] at lexed
  | ok found => simpa [result] using lexed

/-- Under the settings as they are, a text is read strictly, and operators group from the left. -/
theorem ofText_eq_ok {text : String} {expression : Expression}
    (read : ofText {} {} text = .ok expression) :
    tokenizeChars .strict true (Text.withoutBlanks text.toList) = .ok expression.tokens ∧
      Postfix.order false expression.tokens = .ok expression.postfixTokens :=
  stages_of_grouping read

/--
Nothing but loose formulas is accepted.

A text that is read and has a value at some number spells a loose formula without commas outside
of parentheses, in which as many operands are missing as are surplus. The text spells a derivation
exactly if none is missing.
-/
theorem ofText_loose {text : String} {x : Float} {expression : Expression} {value : Float}
    (read : ofText {} {} text = .ok expression)
    (evaluated : expression.evaluate (some x) = .ok value) :
    ∃ formula : Loose .place,
      formula.tokens = expression.tokens ∧
        spell formula.tokens = Text.withoutBlanks text.toList ∧
          formula.commas = 0 ∧ formula.missing = formula.surplus ∧
            (formula.missing = 0 ↔ ∃ e : Derivation false .sum,
              spell e.tokens = Text.withoutBlanks text.toList) := by
  -- The three stages are undone, from the value back to the text.
  obtain ⟨lexed, ordered⟩ := ofText_eq_ok read
  obtain ⟨-, spelled, placed⟩ := (tokenizeChars_eq_ok_iff_wellPlaced ..).mp lexed
  have ran : Program.evaluate (some x) (.ofTokens expression.postfixTokens) = .ok value := by
    rw [evaluate, program] at evaluated
    cases result : Program.evaluate (some x) (.ofTokens expression.postfixTokens) with
    | error fault => simp [result] at evaluated
    | ok found => simpa [result] using evaluated
  -- A value comes from a tree, whose tokens are those of the text in another order.
  obtain ⟨tree, formed, order, -⟩ := TokenTree.exists_of_evaluate ran
  rw [← order] at ordered
  obtain ⟨formula, written, single, even⟩ := exists_loose formed placed ordered
  refine ⟨formula, written, by rw [written, spelled], single, even, ?_⟩
  rw [formula.missing_eq_zero_iff single even]
  constructor
  · rintro ⟨e, same⟩
    exact ⟨e, by rw [same, written, spelled]⟩
  · rintro ⟨e, same⟩
    have again : tokenizeChars .strict true (spell e.tokens) = .ok e.tokens :=
      e.tokenizeChars_spell
    rw [same, lexed] at again
    exact ⟨e, (Except.ok.inj again).symm.trans written.symm⟩

/-- Two numbers in parentheses and a sign after them, which comes last in postfix order anyway. -/
def pair : Expression where
  source := "(2,3)+"
  tokens :=
    [.opening, ⟨"2", .literal⟩, .separator, ⟨"3", .literal⟩, .closing, .sign (.binary .add)]
  postfixTokens := [⟨"2", .literal⟩, ⟨"3", .literal⟩, .sign (.binary .add)]

/-- The formula of the two numbers, where the sign has nothing on its right. -/
def pairFormula : Loose .place :=
  .plain
    (.group (.plain (.numeral ⟨⟨['2'], nofun, List.all_eq_true.mp rfl⟩, none⟩)
      (.comma (.plain (.numeral ⟨⟨['3'], nofun, List.all_eq_true.mp rfl⟩, none⟩) .last))))
    (.operator .add nofun .gap)

/-- The two numbers with the sign are read. -/
theorem ofText_pair : ofText {} {} "(2,3)+" = .ok pair := by
  unfold pair
  rfl

/-- The sign takes the two numbers, whatever is given for the variable. -/
theorem evaluate_pair (x : Float) : ∃ value, pair.evaluate (some x) = .ok value := by
  -- The sign is applied to both numbers, as if it stood between them.
  have formed : TokenTree.WellFormed (some x).isSome
      (.node (.sign (.binary .add)) [.node ⟨"2", .literal⟩ [], .node ⟨"3", .literal⟩ []]) := by
    refine @TokenTree.WellFormed.operation _ _ _ (.binary .add) (.inl rfl) rfl rfl ?_
    simp only [List.mem_cons, List.not_mem_nil, or_false, forall_eq_or_imp, forall_eq]
    exact ⟨.numeral rfl (by decide) (by decide), .numeral rfl (by decide) (by decide)⟩
  -- The postorder of this tree is the postfix order of the two numbers with the sign.
  obtain ⟨value, valued⟩ := formed.value?
  have ran : Program.evaluate (some x) (.ofTokens pair.postfixTokens) = .ok value :=
    TokenTree.evaluate_postorder valued
  exact ⟨value, by simp [evaluate, program, ran]⟩

/-- The two numbers with the sign have a value, although no derivation spells them. -/
theorem ofText_pair_not_derived :
    ∃ expression : Expression,
      ofText {} {} "(2,3)+" = .ok expression ∧
        (∃ value, expression.evaluate (some 1) = .ok value) ∧
          ¬∃ e : Derivation false .sum,
            spell e.tokens = Text.withoutBlanks "(2,3)+".toList := by
  -- A derivation would be read as the same tokens.
  refine ⟨pair, ofText_pair, evaluate_pair 1, ?_⟩
  rintro ⟨e, spelled⟩
  have again : tokenizeChars .strict true (spell e.tokens) = .ok e.tokens := e.tokenizeChars_spell
  rw [spelled, (ofText_eq_ok ofText_pair).1] at again
  have written : pairFormula.tokens = pair.tokens := by decide
  -- The operand on the right of the sign is missing, however the tokens are read.
  have complete : pairFormula.missing = 0 :=
    (pairFormula.missing_eq_zero_iff rfl rfl).mpr ⟨e, (Except.ok.inj again).symm.trans written.symm⟩
  cases complete

/-- The two numbers with the sign have a value, and as many operands missing as surplus. -/
theorem ofText_pair_loose :
    ∃ expression value, ofText {} {} "(2,3)+" = .ok expression ∧
      expression.evaluate (some 1) = .ok value ∧
        ∃ formula : Loose .place,
          formula.tokens = expression.tokens ∧
            spell formula.tokens = Text.withoutBlanks "(2,3)+".toList ∧
              formula.commas = 0 ∧ formula.missing = formula.surplus ∧
                (formula.missing = 0 ↔ ∃ e : Derivation false .sum,
                  spell e.tokens = Text.withoutBlanks "(2,3)+".toList) := by
  obtain ⟨value, evaluated⟩ := evaluate_pair 1
  exact ⟨pair, value, ofText_pair, evaluated, ofText_loose ofText_pair evaluated⟩

end Expression

end Formula
