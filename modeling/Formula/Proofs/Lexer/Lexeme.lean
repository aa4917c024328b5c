import Formula.Proofs.Lexer.Recognizer

/-! Lexemes: what numerals, the variable and names look like, and where they end. -/

namespace Formula

/-- Runs of digits that single points join. -/
inductive IsNumeral : List Char → Prop where
  | digit {c : Char} (isDigit : Text.isDigit c = true) : IsNumeral [c]
  | more {c : Char} {rest : List Char} (isDigit : Text.isDigit c = true)
      (numeral : IsNumeral rest) : IsNumeral (c :: rest)
  | point {c : Char} {rest : List Char} (isDigit : Text.isDigit c = true)
      (numeral : IsNumeral rest) : IsNumeral (c :: '.' :: rest)

namespace IsNumeral

/-- A numeral starts with a digit. -/
theorem head {text : List Char} (numeral : IsNumeral text) :
    ∃ c rest, text = c :: rest ∧ Text.isDigit c = true := by
  -- Each way to make a numeral starts with a digit.
  cases numeral with
  | digit isDigit | more isDigit | point isDigit => exact ⟨_, _, rfl, isDigit⟩

/-- The first character of a numeral is a digit. -/
theorem isDigit_head {c : Char} {rest : List Char} (numeral : IsNumeral (c :: rest)) :
    Text.isDigit c = true := by
  -- The digit is the first character, whatever comes after it.
  obtain ⟨first, others, same, isDigit⟩ := numeral.head
  rwa [(List.cons.inj same).1]

/-- A numeral ends with a digit. -/
theorem last {text : List Char} (numeral : IsNumeral text) :
    ∃ c earlier, text = earlier ++ [c] ∧ Text.isDigit c = true := by
  -- The last character is that of the last row of digits.
  induction numeral with
  | digit isDigit => exact ⟨_, [], rfl, isDigit⟩
  | @more c rest _ _ ih =>
    obtain ⟨last, earlier, rfl, isDigit⟩ := ih
    exact ⟨last, c :: earlier, rfl, isDigit⟩
  | @point c rest _ _ ih =>
    obtain ⟨last, earlier, rfl, isDigit⟩ := ih
    exact ⟨last, c :: '.' :: earlier, rfl, isDigit⟩

end IsNumeral

namespace Recognizer

/-- A numeral is read as far as neither a digit nor a point goes on. -/
theorem numeralRest_append {numeral rest : List Char} (isNumeral : IsNumeral numeral)
    (noDigit : rest.head?.any Text.isDigit = false) (noPoint : rest.head? ≠ some '.') :
    numeralRest (numeral ++ rest) = numeral.length := by
  -- What comes after the numeral is neither a digit nor a point, or nothing.
  have stop : numeralRest rest = 0 := by
    cases rest with
    | nil => rfl
    | cons c rest =>
      simp only [List.head?_cons, Option.any_some, ne_eq, Option.some.injEq] at noDigit noPoint
      simp [numeralRest, noDigit, noPoint]
  -- The induction drops one digit at a time, and the point after it if there is one.
  induction isNumeral with
  | digit isDigit => simp [numeralRest, isDigit, stop]
  | more isDigit _ ih => simp [numeralRest, isDigit, ih]
  | @point c more isDigit numeral ih =>
    -- The point is read because the numeral after it starts with a digit.
    obtain ⟨first, later, rfl, firstDigit⟩ := numeral.head
    simp only [List.cons_append] at ih ⊢
    rw [numeralRest, numeralRest, ih]
    simp [isDigit, firstDigit]

/-- From a digit on, as many characters are read as make up a numeral that no digit follows. -/
theorem isNumeral_take {c : Char} (isDigit : Text.isDigit c = true) (rest : List Char) :
    IsNumeral ((c :: rest).take (numeralRest (c :: rest))) ∧
      ((c :: rest).drop (numeralRest (c :: rest))).head?.any Text.isDigit = false := by
  -- What is read after the digit is nothing, a digit and more, or a point before a digit and more.
  cases rest with
  | nil => simpa [numeralRest, isDigit] using IsNumeral.digit isDigit
  | cons d rest =>
    by_cases nextDigit : Text.isDigit d = true
    · obtain ⟨numeral, stop⟩ := isNumeral_take nextDigit rest
      rw [numeralRest]
      simp only [isDigit, Bool.true_or, if_true, List.take_succ_cons, List.drop_succ_cons]
      exact ⟨.more isDigit numeral, stop⟩
    · -- A last character that is no digit ends the numeral before it.
      cases rest with
      | nil => simp [numeralRest, isDigit, nextDigit, IsNumeral.digit isDigit]
      | cons e rest =>
        by_cases point : d = '.' ∧ Text.isDigit e = true
        · obtain ⟨rfl, laterDigit⟩ := point
          obtain ⟨numeral, stop⟩ := isNumeral_take laterDigit rest
          rw [numeralRest, numeralRest]
          simp only [isDigit, laterDigit, Bool.true_or, if_true, List.head?_cons, Option.any_some,
            BEq.rfl, Bool.and_self, Bool.or_true, List.take_succ_cons, List.drop_succ_cons]
          exact ⟨.point isDigit numeral, stop⟩
        · have stop : numeralRest (d :: e :: rest) = 0 := by
            rw [numeralRest]
            simp [nextDigit, point]
          rw [numeralRest, stop]
          simp [isDigit, nextDigit, IsNumeral.digit isDigit]

/-- A literal is a numeral that no digit follows, or the variable with no word on either side. -/
theorem literal_cases {before after : List Char}
    (matched : literal.matchLength before after ≠ 0) :
    (IsNumeral (after.take (literal.matchLength before after)) ∧
      (after.drop (literal.matchLength before after)).head?.any Text.isDigit = false) ∨
    (literal.matchLength before after = 1 ∧ after.head? = some 'x' ∧
      after.tail.head?.any Text.isWord = false ∧ before.head?.any Text.isWord = false) := by
  -- Whether the first character is a digit decides which of the two is read.
  cases after with
  | nil => simp [matchLength, numeralLength, startsVariable, single] at matched
  | cons c rest =>
    by_cases isDigit : Text.isDigit c = true
    · have length : literal.matchLength before (c :: rest) = numeralRest (c :: rest) := by
        -- A digit alone is a numeral, so that the match is not empty.
        have nonzero : numeralRest (c :: rest) ≠ 0 := by simp [numeralRest, isDigit]
        simp [matchLength, numeralLength, isDigit, nonzero]
      rw [length]
      exact .inl (isNumeral_take isDigit rest)
    · -- The variable is asked for only where there is no numeral.
      have length : literal.matchLength before (c :: rest) =
          single (startsVariable (c :: rest) && !before.head?.any Text.isWord) := by
        simp [matchLength, numeralLength, isDigit]
      rw [length, single_ne_zero] at matched
      rw [length, matched]
      simp only [startsVariable, Bool.and_eq_true, beq_iff_eq, Bool.not_eq_true'] at matched
      exact .inr ⟨rfl, congrArg some matched.1.1, matched.1.2, matched.2⟩

/-- A numeral is matched whole where neither a digit nor a point goes on. -/
theorem matchLength_numeral {numeral rest : List Char} (isNumeral : IsNumeral numeral)
    (noDigit : rest.head?.any Text.isDigit = false) (noPoint : rest.head? ≠ some '.')
    (before : List Char) : literal.matchLength before (numeral ++ rest) = numeral.length := by
  -- The length of the numeral is found first, and it is not zero.
  have length : numeralLength (numeral ++ rest) = numeral.length := by
    obtain ⟨c, later, rfl, isDigit⟩ := isNumeral.head
    rw [← numeralRest_append isNumeral noDigit noPoint]
    simp [numeralLength, isDigit]
  have nonempty : numeral.length ≠ 0 := by
    obtain ⟨c, later, rfl, -⟩ := isNumeral.head
    simp
  simp [matchLength, length, nonempty]

/-- The variable is matched where no word stands on either side of it. -/
theorem matchLength_variable {before rest : List Char}
    (noneBefore : before.head?.any Text.isWord = false)
    (noneAfter : rest.head?.any Text.isWord = false) :
    literal.matchLength before ('x' :: rest) = 1 := by
  -- The variable's letter is not a digit, so that no numeral is found first.
  have noDigit : Text.isDigit 'x' = false := by decide
  simp [matchLength, numeralLength, noDigit, startsVariable, noneBefore, noneAfter, single]

/-- A name and the parenthesis after it are read as a call. -/
theorem callLength_append {name : List Char} (letters : ∀ c ∈ name, c.isAlpha = true)
    (rest : List Char) : callLength (name ++ '(' :: rest) = name.length := by
  -- The letters end exactly at the parenthesis.
  have paren : Char.isAlpha '(' ≠ true := by decide
  have parts : (name ++ '(' :: rest).takeWhile Char.isAlpha = name ∧
      (name ++ '(' :: rest).dropWhile Char.isAlpha = '(' :: rest := by
    rw [List.takeWhile_append_of_pos letters, List.dropWhile_append_of_pos letters,
      List.takeWhile_cons_of_neg paren, List.dropWhile_cons_of_neg paren]
    simp
  simp [callLength, parts]

/-- What is read as a call is a name right before a parenthesis. -/
theorem callLength_cases (after : List Char) :
    callLength after = 0 ∨ ∃ name rest, after = name ++ '(' :: rest ∧
      (∀ c ∈ name, c.isAlpha = true) ∧ callLength after = name.length := by
  -- Without a parenthesis right after the first letters, nothing is read.
  by_cases paren : (after.dropWhile Char.isAlpha).head? = some '('
  · -- The text parts where its first letters end.
    obtain ⟨rest, remaining⟩ := List.head?_eq_some_iff.mp paren
    have parts := List.takeWhile_append_dropWhile (p := Char.isAlpha) (l := after)
    rw [remaining] at parts
    exact .inr ⟨after.takeWhile Char.isAlpha, rest, parts.symm,
      List.all_eq_true.mp List.all_takeWhile, by simp [callLength, paren]⟩
  · exact .inl (by simp [callLength, paren])

/-- A function is a name right before a parenthesis, at the place of an operand. -/
theorem function_cases {before after : List Char}
    (matched : function.matchLength before after ≠ 0) :
    operandPlace before = true ∧ ∃ name rest, after = name ++ '(' :: rest ∧
      (∀ c ∈ name, c.isAlpha = true) ∧ function.matchLength before after = name.length := by
  -- Elsewhere than at the place of an operand, nothing is matched.
  simp only [matchLength] at matched ⊢
  by_cases place : operandPlace before = true
  · simp only [place, if_true] at matched ⊢
    exact ⟨trivial, (callLength_cases after).resolve_left matched⟩
  · simp [place] at matched

/-- At the place of an operand, a name right before a parenthesis is matched whole. -/
theorem matchLength_name {before name : List Char} (place : operandPlace before = true)
    (letters : ∀ c ∈ name, c.isAlpha = true) (rest : List Char) :
    function.matchLength before (name ++ '(' :: rest) = name.length := by
  -- The place of an operand is the only other condition of a call.
  simp [matchLength, place, callLength_append letters rest]

/-- A binary operator comes right after an operand. -/
theorem binaryOperator_cases {before after : List Char}
    (matched : binaryOperator.matchLength before after ≠ 0) : endsOperand before = true := by
  -- The match asks for a sign and for an operand before it.
  simp only [matchLength, single_ne_zero, Bool.and_eq_true] at matched
  exact matched.2

/-- A minus sign is unary at the beginning, and between what awaits and what starts an operand. -/
theorem unaryMinus_cases {before rest : List Char} {c : Char}
    (matched : unaryMinus.matchLength before (c :: rest) ≠ 0) :
    before = [] ∨ before.head?.any awaitsOperand = true ∧ startsOperand rest = true := by
  -- The match asks for a minus sign and for one of its two surroundings.
  simp only [matchLength, single_ne_zero, isUnaryMinus, Bool.and_eq_true,
    Bool.or_eq_true] at matched
  exact matched.2.imp_left List.isEmpty_iff.mp

end Recognizer

end Formula
