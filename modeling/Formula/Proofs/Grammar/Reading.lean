import Formula.Proofs.Grammar.Derivation

/-! Whatever the grammar derives is read, converted and evaluated as its structure says. -/

namespace Formula

namespace Expression

/--
Every text that spells a derivation is read as that derivation.

Blanks may stand anywhere in the text, either policy may be chosen, and powers group from the
side that is chosen. The postfix form is the postorder of the tree of the derivation, and the
value at every number is that of the derivation by recursion on its structure.
-/
theorem ofText_derivation (settings : Settings) (options : ReadingOptions)
    {policy : ConflictPolicy} (chosen : settings.policyFor options = .ok policy)
    (e : Derivation (settings.respectsAssociativity options.respectAssociativity) .sum)
    {text : String} (spelled : Text.withoutBlanks text.toList = spell e.tokens) :
    ∃ expression : Expression,
      ofText settings options text = .ok expression ∧
        expression.postfixTokens = e.tree.postorder ∧
          ∀ x : Float, expression.evaluate (some x) = .ok (e.value x) := by
  -- Lexer, conversion and evaluation are each followed on the tokens of the derivation.
  have ordered := Postfix.order_rendering (e.rendering.mono (Nat.zero_le _))
  have placed : WellPlaced policy none (e.tokens ++ []) := e.wellPlaced rfl .nil
  rw [List.append_nil] at placed
  have read := tokenize_of_wellPlaced chosen e.tokens_ne_nil spelled.symm placed
  refine ⟨⟨text, e.tokens, e.tree.postorder⟩, ?_, rfl, fun x => ?_⟩
  · simp [ofText, read, order, ordered, Except.map]
  · have ran := TokenTree.evaluate_postorder (e.value?_tree x)
    simp [evaluate, program, ran]

/-- A difference with a power in it, whose exponent has a sign. -/
def difference : Derivation false .sum :=
  .subtract
    (.ofProduct (.ofPower (.ofSigned (.ofAtom (.numeral ⟨.single '2' rfl, none⟩)))))
    (.ofPower (.powerLeft rfl (.ofSigned (.ofAtom .letter)) (.negate .letter)))

/-- The difference is read from a text with blanks around its sign. -/
theorem ofText_difference :
    Text.withoutBlanks "2 - x^-x".toList = spell difference.tokens ∧
      ∃ expression : Expression,
        ofText {} {} "2 - x^-x" = .ok expression ∧
          expression.postfixTokens.map Token.text = ["2", "x", "x", "unary_minus", "^", "-"] ∧
            ∀ x : Float, expression.evaluate (some x) = .ok (difference.value x) := by
  -- The settings as they are choose the strict policy, and group powers from the left.
  have chosen : ({} : Settings).policyFor {} = .ok .strict := rfl
  have spelled : Text.withoutBlanks "2 - x^-x".toList = spell difference.tokens := by decide
  obtain ⟨expression, read, ordered, valued⟩ := ofText_derivation {} {} chosen difference spelled
  refine ⟨spelled, expression, read, ?_, valued⟩
  rw [ordered]
  decide

end Expression

end Formula
