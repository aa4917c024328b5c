import Formula.Proofs.Grammar.Composition
import Formula.Proofs.Lexer.Failure

/-! A text in parentheses has the value of the text, unless two minus signs come first in it. -/

namespace Formula

/-- A first sign before anything balanced has an operand, or else another sign comes after it. -/
theorem WellPlaced.after_sign {policy : ConflictPolicy} {rest : List Token}
    (placed : WellPlaced policy none (.sign (.unary .neg) :: rest))
    (balanced : Postfix.Balanced 0 (.sign (.unary .neg) :: rest)) (nonempty : rest ≠ []) :
    rest.head?.any (·.kind.startsOperand) = true ∨
      ∃ more, rest = .sign (.unary .neg) :: more := by
  cases starts : rest.head?.any (·.kind.startsOperand) with
  | true => exact .inl rfl
  | false =>
    -- An operator that comes after a sign is no binary one.
    -- Balance counts operands, and the sign is still waiting for its own.
    have bare := bare_of_balanced balanced starts
    cases rest with
    | nil => exact absurd rfl nonempty
    | cons next more =>
      have kind : next.kind = .operator := by simpa using bare
      have unary : next.isUnaryMinus = true := by
        by_contra binary
        cases placed.2.1.binary kind (by simpa using binary)
      obtain ⟨text, _⟩ := next
      simp only [Token.isUnaryMinus, Bool.and_eq_true, beq_iff_eq] at unary
      obtain ⟨rfl, rfl⟩ := unary
      exact .inr ⟨more, rfl⟩

/-- A sign alone is not the row of a tree, in any order. -/
theorem TokenTree.WellFormed.ne_sign {supplied respecting : Bool} {tree : TokenTree}
    (formed : tree.WellFormed supplied) {rest : List Token}
    (ordered : Postfix.order respecting (.sign (.unary .neg) :: rest) = .ok tree.postorder) :
    rest ≠ [] := by
  -- The literal of the tree would have to be the sign.
  rintro rfl
  -- The conversion starts on an empty stack, where nothing waits.
  have waiting : Postfix.Waiting [] := nofun
  have perm := Postfix.perm_of_orderFrom waiting ordered
  obtain ⟨first, others, order, literal⟩ := formed.literal_first
  have member : first ∈ Postfix.kept [.sign (.unary .neg)] ++ Postfix.kept [] :=
    perm.mem_iff.mp (by simp [order])
  obtain rfl : first = .sign (.unary .neg) := by
    simpa [Postfix.kept, Token.sign, Kind.isKept] using member
  cases literal

/-- Where a text is read strictly, none of its places is ambiguous. -/
theorem not_ambiguousAt_of_tokenizeChars {rejecting : Bool} {text : List Char}
    {tokens : List Token} (read : tokenizeChars .strict rejecting text = .ok tokens) :
    ∀ place, ¬AmbiguousAt text place := by
  -- Strict reading stops at clashes before it looks at anything else.
  rw [← clashes_eq_nil_iff_ambiguousAt]
  cases clashed : clashes text with
  | nil => rfl
  | cons clash others =>
    -- The first clash would have been reported.
    unfold tokenizeChars at read
    rw [clashed] at read
    split at read <;> cases read

/-- Whatever is found in a continued row is found in the row, unless it is the continuation. -/
theorem getElem?_of_append {α : Type} {row : List α} {item last : α} {place : Nat}
    (found : (row ++ [last])[place]? = some item) (other : item ≠ last) :
    row[place]? = some item := by
  rcases Nat.lt_or_ge place row.length with within | beyond
  · rwa [List.getElem?_append_left within] at found
  · -- Only the continuation is that far behind.
    rw [List.getElem?_append_right beyond, List.getElem?_singleton] at found
    split at found
    · exact absurd (Option.some.inj found).symm other
    · cases found

/-- Between parentheses no place becomes ambiguous. -/
theorem AmbiguousAt.of_enclosed {text : List Char} {place : Nat}
    (ambiguous : AmbiguousAt ('(' :: (text ++ [')'])) place) : ∃ inner, AmbiguousAt text inner := by
  obtain ⟨letter, call, before⟩ := ambiguous
  -- A parenthesis is no x, so that the place is one of the text.
  cases place with
  | zero => simp at letter
  | succ inner =>
    -- The x, what it is called with, and what comes before it all belong to the text.
    simp only [List.getElem?_cons_succ] at letter call
    refine ⟨inner, getElem?_of_append letter (by decide), getElem?_of_append call (by decide), ?_⟩
    cases inner with
    | zero => exact .inl rfl
    | succ earlier =>
      -- What stands before is the opening parenthesis itself, or part of the text.
      rcases before with impossible | ⟨c, found, listed⟩
      · cases impossible
      · simp only [Nat.add_sub_cancel, List.getElem?_cons_succ] at found
        refine .inr ⟨c, getElem?_of_append found ?_, listed⟩
        rintro rfl
        simp at listed

/-- After a parenthesis, a minus sign before another one belongs to no token. -/
theorem not_covered_minus {c : Char} {rest : List Char} (minus : c = '-') :
    ¬Covered ['('] c ('-' :: rest) := by
  -- It is neither part of a word nor a mark, no operand ends before it, and none starts after it.
  have listed : '-' ∈ Recognizer.punctuation := by decide
  obtain ⟨noDigit, noLetter, -, notX, notPoint⟩ := Recognizer.of_mem_punctuation listed
  intro covered
  cases covered with
  | digit isDigit => simp [minus, noDigit] at isDigit
  | point => exact notPoint minus.symm
  | mark isMark => simp [minus] at isMark
  | letter => exact notX minus.symm
  | sign _ ended =>
    have noEnd : Recognizer.endsOperand ['('] = false := by decide
    rw [← Recognizer.endsOperand_iff, noEnd] at ended
    cases ended
  | leadingMinus beginning => cases beginning
  | minus _ started => simp [OperandStarted, noDigit, noLetter] at started
  | name isLetter => simp [minus, noLetter] at isLetter

/-- Between parentheses, a text that starts with two minus signs fails at the first of them. -/
theorem fails_of_two_signs {text : List Char} (quiet : ∀ place, ¬AmbiguousAt text place)
    (signs : ['-', '-'] <+: text) :
    Fails .strict true ('(' :: (text ++ [')'])) "Unexpected character '-' at position 1"
      (some 1) := by
  obtain ⟨rest, rfl⟩ := signs
  have found : ('(' :: (['-', '-'] ++ rest ++ [')']))[1]? = some '-' := rfl
  -- Ambiguity inside would be ambiguity of the text alone.
  have settled : ∀ place, ¬AmbiguousAt ('(' :: (['-', '-'] ++ rest ++ [')'])) place := by
    intro place ambiguous
    obtain ⟨inner, within⟩ := ambiguous.of_enclosed
    exact quiet inner within
  -- The first sign stands at place 1, before which only the parenthesis is.
  have first : IsLeast {place | UncoveredAt ('(' :: (['-', '-'] ++ rest ++ [')'])) place} 1 := by
    refine ⟨⟨'-', found, not_covered_minus rfl⟩, fun place uncovered => ?_⟩
    -- The parenthesis before the signs is covered.
    cases place with
    | zero =>
      obtain ⟨c, opening, noToken⟩ := uncovered
      cases opening
      exact absurd (.mark (by decide)) noToken
    | succ place => exact Nat.succ_pos place
  have wording : "Unexpected character '" ++ String.singleton '-' ++ "' at position " ++ toString 1
      = "Unexpected character '-' at position 1" := by decide
  rw [← wording]
  exact .unexpected rfl (fun _ => settled) first found

namespace Expression

variable {grouping : Option Bool} {x : Float}

/-- A text in parentheses is spelled by what spells it, between the parentheses. -/
theorem withoutBlanks_parenthesised (text : String) :
    Text.withoutBlanks ("(" ++ text ++ ")").toList =
      '(' :: (Text.withoutBlanks text.toList ++ [')']) := by
  -- Parentheses are no blanks, and blanks are removed piece by piece.
  have marksOpening : Text.withoutBlanks "(".toList = ['('] := by decide
  have marksClosing : Text.withoutBlanks ")".toList = [')'] := by decide
  rw [String.toList_append, String.toList_append, Text.withoutBlanks_append,
    Text.withoutBlanks_append, List.append_assoc, marksOpening, marksClosing]
  rfl

/-- Where a tree starts with a sign, an operand comes next, unless the text starts with two. -/
theorem startsOperand_of_single {rest : List Token} {tree : TokenTree} {supplied respecting : Bool}
    (placed : WellPlaced .strict none (.sign (.unary .neg) :: rest))
    (single : ¬ ['-', '-'] <+: spell (.sign (.unary .neg) :: rest))
    (ordered : Postfix.order respecting (.sign (.unary .neg) :: rest) = .ok tree.postorder)
    (formed : tree.WellFormed supplied) : rest.head?.any (·.kind.startsOperand) = true := by
  have balanced : Postfix.Balanced 0 (.sign (.unary .neg) :: rest) :=
    Postfix.balanced_of_orderFrom ordered
  rcases placed.after_sign balanced (formed.ne_sign ordered) with operand | ⟨more, rfl⟩
  · exact operand
  · -- Two signs are written as two minus signs.
    exact absurd ⟨spell more, rfl⟩ single

/-- A text with a value has it in parentheses too, unless two minus signs come first in it. -/
theorem YieldsGrouped.parenthesised {text : String} {value : Float}
    (yields : YieldsGrouped grouping text x value)
    (single : ¬ ['-', '-'] <+: Text.withoutBlanks text.toList) :
    YieldsGrouped grouping ("(" ++ text ++ ")") x value := by
  obtain ⟨e, read, evaluated⟩ := yields
  obtain ⟨lexed, ordered⟩ := stages_of_grouping read
  obtain ⟨-, spelled, placed⟩ := (tokenizeChars_eq_ok_iff_wellPlaced ..).mp lexed
  -- The value comes from a tree, whose tokens are those between the parentheses.
  obtain ⟨tree, formed, order, valued⟩ :=
    TokenTree.exists_of_evaluate (evaluate_eq_ok_iff.mp evaluated)
  rw [← order] at ordered
  -- The first token matters, because a sign is read differently at the start of a text.
  have signed : ∀ rest, e.tokens = .sign (.unary .neg) :: rest →
      rest.head?.any (·.kind.startsOperand) = true := by
    intro rest starts
    rw [starts] at ordered placed spelled
    rw [← spelled] at single
    exact startsOperand_of_single placed single ordered formed
  have spelledWhole : spell (.opening :: (e.tokens ++ [.closing])) =
      Text.withoutBlanks ("(" ++ text ++ ")").toList := by
    rw [withoutBlanks_parenthesised, spell_cons, spell_append, spell_cons, spell_nil,
      List.append_nil, spelled]
    rfl
  have placedWhole : WellPlaced .strict none (.opening :: (e.tokens ++ [.closing])) :=
    .opening (placed.within signed rfl).closed none
  -- On the stack, the opening parenthesis keeps what is inside apart from what is outside.
  have moves : Postfix.Moves (({} : Settings).respectsAssociativity grouping) []
      (.opening :: (e.tokens ++ [.closing])) (tree.postorder ++ []) [] :=
    .enclosed ordered rfl rfl rfl
  exact yieldsGrouped_of_order tree spelledWhole (List.cons_ne_nil _ _) placedWhole
    (by simpa using moves.order nofun) valued

/-- A text that can be read, but starts with two minus signs, cannot be read in parentheses. -/
theorem refused_of_two_signs {text : String} {e : Expression}
    (read : ofText {} { respectAssociativity := grouping } text = .ok e)
    (signs : ['-', '-'] <+: Text.withoutBlanks text.toList) :
    ∃ fault : LexicalFault,
      ofText {} { respectAssociativity := grouping } ("(" ++ text ++ ")") =
          .error (.formula (.lexical fault)) ∧
        fault.message = "Unexpected character '-' at position 1" ∧ fault.position? = some 1 := by
  have quiet := not_ambiguousAt_of_tokenizeChars (stages_of_grouping read).1
  obtain ⟨fault, failed, message, position⟩ :=
    tokenizeChars_fails_iff.mpr (fails_of_two_signs quiet signs)
  -- The text that is scanned is the one without blanks.
  have refused : Formula.tokenize .strict true ("(" ++ text ++ ")") = .error fault := by
    rw [Formula.tokenize, withoutBlanks_parenthesised]
    exact failed
  -- The options set the grouping only, so that everything else is as by default.
  have chosen : ({} : Settings).policyFor { respectAssociativity := grouping } = .ok .strict := rfl
  have rejecting : ({} : Settings).rejectsUnknown { respectAssociativity := grouping } = true := rfl
  refine ⟨fault, ?_, message, position⟩
  simp only [ofText, tokenize, chosen, rejecting, refused]

/--
A text in parentheses has the value of the text, unless two minus signs come first in it.

Whichever way operators group, a text that has a value at a number has the same value there when it
is put in parentheses. Where the first two characters that are not blank are minus signs, the text
in parentheses is refused instead, because after a parenthesis a sign has to have an operand.
-/
theorem yields_parenthesised {text : String} {value : Float}
    (yields : YieldsGrouped grouping text x value) :
    (¬ ['-', '-'] <+: Text.withoutBlanks text.toList →
      YieldsGrouped grouping ("(" ++ text ++ ")") x value) ∧
    (['-', '-'] <+: Text.withoutBlanks text.toList →
      ∃ fault : LexicalFault,
        ofText {} { respectAssociativity := grouping } ("(" ++ text ++ ")") =
            .error (.formula (.lexical fault)) ∧
          fault.message = "Unexpected character '-' at position 1" ∧ fault.position? = some 1) := by
  refine ⟨fun single => yields.parenthesised single, fun signs => ?_⟩
  obtain ⟨e, read, -⟩ := yields
  exact refused_of_two_signs read signs

/-- Two signs before a number undo each other, where equal operators wait for their right side. -/
theorem yieldsGrouped_two_signs : YieldsGrouped (some true) "--1" 0 1 :=
  -- The first sign waits on the stack for the second one, and both come after the number.
  ⟨⟨"--1", [.sign (.unary .neg), .sign (.unary .neg), ⟨"1", .literal⟩],
    [⟨"1", .literal⟩, .sign (.unary .neg), .sign (.unary .neg)]⟩, rfl, rfl⟩

/-- One sign before the variable is read alone and in parentheses, two signs are read alone only. -/
theorem yields_parenthesised_signs :
    YieldsGrouped (some true) "-x" 1 (-1) ∧ YieldsGrouped (some true) "(-x)" 1 (-1) ∧
      YieldsGrouped (some true) "--1" 0 1 ∧
        ∃ fault : LexicalFault,
          ofText {} { respectAssociativity := some true } "(--1)" =
              .error (.formula (.lexical fault)) ∧
            fault.message = "Unexpected character '-' at position 1" ∧
              fault.position? = some 1 := by
  have one : YieldsGrouped (some true) "-x" 1 (-1) :=
    ⟨⟨"-x", [.sign (.unary .neg), .letter], [.letter, .sign (.unary .neg)]⟩, rfl, rfl⟩
  -- The theorem is applied to one sign for its first half and to two for its second.
  exact ⟨one, (yields_parenthesised one).1 (by decide), yieldsGrouped_two_signs,
    (yields_parenthesised yieldsGrouped_two_signs).2 (by decide)⟩

/-- Not every text with a value is read in parentheses. -/
theorem not_yields_parenthesised :
    ¬∀ (text : String) (x value : Float), YieldsGrouped (some true) text x value →
      YieldsGrouped (some true) ("(" ++ text ++ ")") x value := by
  intro all
  obtain ⟨e, read, -⟩ := all "--1" 0 1 yieldsGrouped_two_signs
  -- After the parenthesis, the first sign is refused.
  have refused : ofText {} { respectAssociativity := some true } ("(" ++ "--1" ++ ")") =
      .error (.formula (.lexical (.unexpected 1 '-'))) := rfl
  rw [refused] at read
  cases read

end Expression

end Formula
