import Formula.Lexer.Recognizer
import Formula.Proofs.Text.Character

/-! Recognizers: which characters their tokens start with, and how far these tokens reach. -/

namespace Formula.Recognizer

/-- The characters that a token of a form can start with. -/
def opens : Recognizer → Char → Bool
  | literal, c => Text.isDigit c || c == 'x'
  | binaryOperator, c => isSign c
  | unaryMinus, c => c == '-'
  | leftParen, c => c == '('
  | rightParen, c => c == ')'
  | function, c => c.isAlpha
  | comma, c => c == ','

/-- Every form of token has its place in the order of priority. -/
theorem mem_all (form : Recognizer) : form ∈ all := by
  cases form <;> decide

/-- A single character is matched exactly when its condition holds. -/
theorem single_ne_zero {holds : Bool} : single holds ≠ 0 ↔ holds = true := by
  cases holds <;> simp [single]

/-- What is matched with at least one character is found. -/
theorem found_of_matched {form : Recognizer} {before text lexeme : List Char}
    (matched : form.matchLength before text = lexeme.length) (nonempty : lexeme ≠ []) :
    form.matchLength before text ≠ 0 := by
  -- Only an empty row of characters has no length.
  rw [matched]
  exact fun empty => nonempty (List.length_eq_zero_iff.mp empty)

/-- A form that matches at a place starts with the character there. -/
theorem opens_of_matchLength {form : Recognizer} {before rest : List Char} {c : Char}
    (matched : form.matchLength before (c :: rest) ≠ 0) : form.opens c = true := by
  -- Each form looks at the first character before anything else.
  cases form with
  | literal =>
    simp only [matchLength] at matched
    split at matched
    · cases digit : Text.isDigit c with
      | true => simp [opens, digit]
      | false => simp [numeralLength, digit] at matched
    · rw [single_ne_zero] at matched
      simp only [startsVariable, Bool.and_eq_true] at matched
      simp [opens, matched.1.1]
  | binaryOperator =>
    simp only [matchLength, single_ne_zero, List.head?_cons, Option.any_some,
      Bool.and_eq_true] at matched
    exact matched.1
  | unaryMinus =>
    simp only [matchLength, single_ne_zero, isUnaryMinus, Bool.and_eq_true] at matched
    exact matched.1
  | leftParen | rightParen | comma => simpa [matchLength, single_ne_zero, opens] using matched
  | function =>
    simp only [matchLength, callLength] at matched
    cases letter : c.isAlpha with
    | true => exact letter
    | false => simp [letter] at matched

/-- The characters of a numeral are digits and points. -/
theorem digit_or_point_of_mem_take {text : List Char} {c : Char}
    (member : c ∈ text.take (numeralRest text)) : Text.isDigit c = true ∨ c = '.' := by
  -- What is taken is read one digit or point at a time.
  induction text with
  | nil => simp at member
  | cons d rest ih =>
    rw [numeralRest] at member
    split at member
    · rename_i part
      rcases List.mem_cons.mp member with rfl | member
      · simp only [Bool.or_eq_true, Bool.and_eq_true, beq_iff_eq] at part
        exact part.imp_right And.left
      · exact ih member
    · simp at member

/-- A numeral is not longer than its text. -/
theorem numeralRest_le (text : List Char) : numeralRest text ≤ text.length := by
  -- Every character that is read is one of the text.
  induction text with
  | nil => simp [numeralRest]
  | cons c rest ih =>
    rw [numeralRest]
    split
    · simpa using ih
    · simp

/-- A token is not longer than the text that it starts. -/
theorem matchLength_le (form : Recognizer) (before : List Char) (c : Char) (rest : List Char) :
    form.matchLength before (c :: rest) ≤ (c :: rest).length := by
  -- Names and numerals are read off the text itself, and all else is one character.
  have one : ∀ holds, single holds ≤ (c :: rest).length := by
    intro holds
    cases holds <;> simp [single]
  cases form with
  | literal =>
    have numeral : numeralLength (c :: rest) ≤ (c :: rest).length := by
      rw [numeralLength]
      split
      · exact numeralRest_le _
      · exact Nat.zero_le _
    simp only [matchLength]
    split
    · exact numeral
    · exact one _
  | binaryOperator | unaryMinus | leftParen | rightParen | comma => exact one _
  | function =>
    simp only [matchLength, callLength]
    split
    · split
      · exact (List.takeWhile_sublist _).length_le
      · exact Nat.zero_le _
    · exact Nat.zero_le _

/-- Only numerals and names can be longer than one character. -/
theorem matchLength_le_one {form : Recognizer} (notLiteral : form ≠ literal)
    (notFunction : form ≠ function) (before after : List Char) :
    form.matchLength before after ≤ 1 := by
  -- The condition of every other form is on a single character.
  have one : ∀ holds, single holds ≤ 1 := by
    intro holds
    cases holds <;> simp [single]
  cases form with
  | literal => exact absurd rfl notLiteral
  | function => exact absurd rfl notFunction
  | binaryOperator | unaryMinus | leftParen | rightParen | comma => exact one _

/-- The characters of operators, parentheses and commas. -/
def punctuation : List Char :=
  ['-', '+', '*', '/', '^', '(', ')', ',']

/-- A token that is neither a numeral, the variable nor a name starts with punctuation. -/
theorem mem_punctuation_of_opens {form : Recognizer} {c : Char} (opened : form.opens c = true)
    (notLiteral : form ≠ literal) (notFunction : form ≠ function) : c ∈ punctuation := by
  -- The remaining forms are opened by the characters that they are written with.
  cases form with
  | literal => exact absurd rfl notLiteral
  | function => exact absurd rfl notFunction
  | binaryOperator =>
    have sign : c ∈ ['-', '+', '*', '/', '^'] := by simpa [opens, isSign] using opened
    exact List.mem_append_left ['(', ')', ','] sign
  | unaryMinus | leftParen | rightParen | comma =>
    simp only [opens, beq_iff_eq] at opened
    subst opened
    decide

/-- Two forms share a first character only where a name may be the variable, or at a minus sign. -/
theorem eq_of_opens {form other : Recognizer} {c : Char} (opened : form.opens c = true)
    (otherOpened : other.opens c = true) :
    form = other ∨
      (c = 'x' ∧ (form = literal ∧ other = function ∨ form = function ∧ other = literal)) ∨
      (c = '-' ∧ (form = binaryOperator ∧ other = unaryMinus ∨
        form = unaryMinus ∧ other = binaryOperator)) := by
  -- Punctuation is a finite set of characters, so there every pair of forms can be tried.
  have finite : (punctuation.all fun c => all.all fun form => all.all fun other =>
      !form.opens c || !other.opens c || form == other || (c == '-' &&
        (form == binaryOperator && other == unaryMinus ||
          form == unaryMinus && other == binaryOperator))) = true := by
    decide +kernel
  by_cases mark : c ∈ punctuation
  · simp only [List.all_eq_true] at finite
    have same := finite c mark form (mem_all form) other (mem_all other)
    simp only [opened, otherOpened, Bool.not_true, Bool.false_or, Bool.or_eq_true, beq_iff_eq,
      Bool.and_eq_true] at same
    exact same.imp_right .inr
  · -- Elsewhere only literals and names start, and no digit is a letter.
    have either : ∀ form : Recognizer, form.opens c = true → form = literal ∨ form = function := by
      intro form opened
      by_cases isLiteral : form = literal
      · exact .inl isLiteral
      · by_cases isFunction : form = function
        · exact .inr isFunction
        · exact absurd (mem_punctuation_of_opens opened isLiteral isFunction) mark
    have letterX : literal.opens c = true → function.opens c = true → c = 'x' := by
      intro literalOpened letter
      simpa [opens, Text.isDigit_of_isAlpha letter] using literalOpened
    rcases either form opened with rfl | rfl <;> rcases either other otherOpened with rfl | rfl
    · exact .inl rfl
    · exact .inr (.inl ⟨letterX opened otherOpened, .inl ⟨rfl, rfl⟩⟩)
    · exact .inr (.inl ⟨letterX otherOpened opened, .inr ⟨rfl, rfl⟩⟩)
    · exact .inl rfl

/-- No character of a numeral starts a token of another form. -/
theorem matchLength_digit_or_point {form : Recognizer} (other : form ≠ literal) {c : Char}
    (part : Text.isDigit c = true ∨ c = '.') (before rest : List Char) :
    form.matchLength before (c :: rest) = 0 := by
  -- If another form matched, it would be opened by the character too.
  cases matched : form.matchLength before (c :: rest) with
  | zero => rfl
  | succ length =>
    have found : form.matchLength before (c :: rest) ≠ 0 := by simp [matched]
    have opened : form.opens c = true := opens_of_matchLength found
    rcases part with digit | rfl
    · -- A digit opens a literal, and it is neither the variable's letter nor a minus sign.
      have literalOpened : literal.opens c = true := by simp [opens, digit]
      rcases eq_of_opens opened literalOpened with same | ⟨rfl, -⟩ | ⟨rfl, -⟩
      · exact absurd same other
      · exact absurd digit (by decide)
      · exact absurd digit (by decide)
    · -- Nothing starts with a point.
      have none : ∀ form ∈ all, form.opens '.' = false := by decide
      simp [none form (mem_all form)] at opened

/-- Within a name no token of another form starts. -/
theorem matchLength_within_name {form : Recognizer} (other : form ≠ function) {c last : Char}
    (letter : c.isAlpha = true) (lastLetter : last.isAlpha = true) (before rest : List Char) :
    form.matchLength (last :: before) (c :: rest) = 0 := by
  -- If another form matched, it would be opened by the letter too.
  cases matched : form.matchLength (last :: before) (c :: rest) with
  | zero => rfl
  | succ length =>
    have found : form.matchLength (last :: before) (c :: rest) ≠ 0 := by simp [matched]
    have opened : form.opens c = true := opens_of_matchLength found
    have functionOpened : function.opens c = true := letter
    rcases eq_of_opens opened functionOpened with same | ⟨rfl, both⟩ | ⟨rfl, -⟩
    · exact absurd same other
    · -- The variable does not follow a letter.
      obtain ⟨rfl, -⟩ | ⟨-, impossible⟩ := both
      · have noDigit : Text.isDigit 'x' = false := by decide
        simp [matchLength, numeralLength, noDigit, Text.isWord_of_isAlpha lastLetter,
          single] at matched
      · cases impossible
    · exact absurd letter (by decide)

/-- After its first character, a numeral goes on with digits and points. -/
theorem digit_or_point_of_mem_literal {before : List Char} {c d : Char} {rest inner : List Char}
    (lexeme : (c :: rest).take (literal.matchLength before (c :: rest)) = c :: inner)
    (member : d ∈ inner) : Text.isDigit d = true ∨ d = '.' := by
  -- A literal is a numeral or the variable, whichever was found first.
  simp only [matchLength] at lexeme
  split at lexeme
  · -- A numeral that is not empty is as long as the digits and points from its first digit on.
    rename_i numeral
    have long : numeralLength (c :: rest) = numeralRest (c :: rest) := by
      by_cases digit : Text.isDigit c = true
      · simp [numeralLength, digit]
      · simp [numeralLength, digit] at numeral
    rw [long] at lexeme
    exact digit_or_point_of_mem_take (lexeme ▸ List.mem_cons_of_mem c member)
  · -- The variable is a single character.
    have short : ∀ holds, ((c :: rest).take (single holds)).length ≤ 1 := by
      intro holds
      cases holds <;> simp [single]
    have length := short (startsVariable (c :: rest) && !before.head?.any Text.isWord)
    rw [lexeme, List.length_cons] at length
    rw [List.length_eq_zero_iff.mp (by omega : inner.length = 0)] at member
    cases member

/-- The characters of a name are letters. -/
theorem isAlpha_of_mem_function {before after : List Char} {c : Char}
    (member : c ∈ after.take (function.matchLength before after)) : c.isAlpha = true := by
  -- A name is as long as the row of letters at its start, or nothing is matched.
  have name : ∀ length ≤ (after.takeWhile Char.isAlpha).length,
      c ∈ after.take length → c.isAlpha = true := by
    intro length short taken
    rw [← List.takeWhile_append_dropWhile (p := Char.isAlpha) (l := after),
      List.take_append_of_le_length short] at taken
    exact List.all_eq_true.mp List.all_takeWhile c (List.mem_of_mem_take taken)
  refine name _ ?_ member
  simp only [matchLength, callLength]
  split
  · split
    · exact Nat.le_refl _
    · exact Nat.zero_le _
  · exact Nat.zero_le _

/-- Within a token, no token of another form starts. -/
theorem matchLength_within {form other : Recognizer} (distinct : other ≠ form)
    {before rest earlier later : List Char} {c d : Char}
    (lexeme : (c :: rest).take (form.matchLength before (c :: rest)) = c :: (earlier ++ d :: later))
    (after : List Char) :
    other.matchLength (earlier.reverse ++ c :: before) (d :: after) = 0 := by
  -- The three cases differ in what the characters after the first one can be.
  by_cases isLiteral : form = literal
  · subst isLiteral
    have part := digit_or_point_of_mem_literal lexeme (d := d) (by simp)
    exact matchLength_digit_or_point distinct part _ after
  · by_cases isFunction : form = function
    · -- The character before is a letter of the same name.
      subst isFunction
      have letters : ∀ a ∈ c :: (earlier ++ d :: later), a.isAlpha = true :=
        fun a member => isAlpha_of_mem_function (lexeme ▸ member)
      cases backwards : earlier.reverse with
      | nil =>
        exact matchLength_within_name distinct (letters d (by simp)) (letters c (by simp)) _ _
      | cons last others =>
        have lastMember : last ∈ earlier := by
          rw [← List.mem_reverse, backwards]
          exact List.mem_cons_self
        exact matchLength_within_name distinct (letters d (by simp))
          (letters last (by simp [lastMember])) _ _
    · -- Tokens of the other forms are single characters.
      have short := matchLength_le_one isLiteral isFunction before (c :: rest)
      have long := congrArg List.length lexeme
      simp only [List.length_take, List.length_cons, List.length_append] at long
      omega

/-- Of several tokens at a place, only the one with the highest priority can be long. -/
theorem matchLength_rival {form other : Recognizer} (distinct : other ≠ form)
    (notLiteral : other ≠ literal) {before rest : List Char} {c : Char}
    (matched : form.matchLength before (c :: rest) ≠ 0) :
    other.matchLength before (c :: rest) ≤ 1 := by
  -- Literals come first, and only names among the other forms can be long.
  by_cases isFunction : other = function
  · subst isFunction
    by_cases single : function.matchLength before (c :: rest) = 0
    · omega
    · -- A name competes only with the variable, which no further letter follows.
      rcases eq_of_opens (opens_of_matchLength matched) (opens_of_matchLength single) with same |
        ⟨rfl, both⟩ | ⟨-, both⟩
      · exact absurd same.symm distinct
      · obtain ⟨rfl, -⟩ | ⟨-, impossible⟩ := both
        · have noDigit : Text.isDigit 'x' = false := by decide
          -- The variable stands alone where it is matched.
          have alone : rest.head?.any Text.isWord = false := by
            cases word : rest.head?.any Text.isWord with
            | false => rfl
            | true =>
              simp [matchLength, numeralLength, noDigit, startsVariable, word,
                Recognizer.single] at matched
          simp only [matchLength, callLength]
          cases rest with
          | nil => split <;> simp
          | cons d rest =>
            have noLetter : d.isAlpha = false := by
              cases letter : d.isAlpha with
              | false => rfl
              | true => simp [Text.isWord_of_isAlpha letter] at alone
            have name : ('x' :: d :: rest).takeWhile Char.isAlpha = ['x'] := by
              rw [List.takeWhile_cons_of_pos (by decide),
                List.takeWhile_cons_of_neg (by simp [noLetter])]
            rw [name]
            split
            · split <;> simp
            · simp
        · cases impossible
      · obtain ⟨-, impossible⟩ | ⟨-, impossible⟩ := both <;> cases impossible
  · exact matchLength_le_one notLiteral isFunction before (c :: rest)

end Formula.Recognizer
