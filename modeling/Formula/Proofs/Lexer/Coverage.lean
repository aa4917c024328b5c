import Formula.Proofs.Lexer.Language
import Mathlib.Data.List.Basic
import Mathlib.Tactic.Tauto

/-! What the recognizers cover: which characters belong to tokens, and which are claimed twice. -/

namespace Formula

/-- An operand is awaited after a sign, an opening parenthesis or a comma. -/
def OperandAwaited (before : List Char) : Prop :=
  ∃ c ∈ before.head?, c ∈ ['-', '+', '*', '/', '^', '(', ',']

/-- An operand ends with a closing parenthesis, a digit, or an x that no word leads up to. -/
def OperandEnded (before : List Char) : Prop :=
  (∃ c ∈ before.head?, c = ')' ∨ Text.isDigit c = true) ∨
    ∃ earlier, before = 'x' :: earlier ∧ ∀ c ∈ earlier.head?, Text.isWord c = false

/-- A row of letters goes on to an opening parenthesis. -/
def LeadsToCall (after : List Char) : Prop :=
  (after.dropWhile Char.isAlpha).head? = some '('

/-- An operand starts with a digit, a parenthesis, a name that is called, or an x without a word. -/
def OperandStarted (after : List Char) : Prop :=
  (∃ c ∈ after.head?, Text.isDigit c = true ∨ c = '(') ∨
    (∃ c ∈ after.head?, c.isAlpha = true ∧ LeadsToCall after) ∨
      ∃ later, after = 'x' :: later ∧ ∀ c ∈ later.head?, Text.isWord c = false

/-- The characters that belong to a token, between what comes before them, backwards, and after. -/
inductive Covered (before : List Char) : Char → (after : List Char) → Prop where
  /-- Every digit. -/
  | digit {c : Char} {after : List Char} (isDigit : Text.isDigit c = true) : Covered before c after
  /-- A point between two digits. -/
  | point {after : List Char} (digitBefore : ∃ c ∈ before.head?, Text.isDigit c = true)
      (digitAfter : ∃ c ∈ after.head?, Text.isDigit c = true) : Covered before '.' after
  /-- Parentheses and commas. -/
  | mark {c : Char} {after : List Char} (isMark : c ∈ ['(', ')', ',']) : Covered before c after
  /-- An x with no word character on either side. -/
  | letter {after : List Char} (noneBefore : ∀ c ∈ before.head?, Text.isWord c = false)
      (noneAfter : ∀ c ∈ after.head?, Text.isWord c = false) : Covered before 'x' after
  /-- A sign after an operand. -/
  | sign {c : Char} {after : List Char} (isSign : c ∈ ['+', '-', '*', '/', '^'])
      (ended : OperandEnded before) : Covered before c after
  /-- A minus sign at the beginning. -/
  | leadingMinus {after : List Char} (beginning : before = []) : Covered before '-' after
  /-- A minus sign between what awaits an operand and what starts one. -/
  | minus {after : List Char} (awaited : OperandAwaited before) (started : OperandStarted after) :
      Covered before '-' after
  /-- A letter of a name that is called, where the name comes at the place of an operand. -/
  | name {c : Char} {after : List Char} (isLetter : c.isAlpha = true)
      (place : before.dropWhile Char.isAlpha = [] ∨
        OperandAwaited (before.dropWhile Char.isAlpha))
      (called : LeadsToCall after) : Covered before c after

/-- What holds of nothing optional holds of none of it. -/
theorem forall_mem_of_any_eq_false {α : Type} {p : α → Bool} {value : Option α}
    (none : value.any p = false) : ∀ a ∈ value, p a = false := by
  rintro a rfl
  exact none

namespace Recognizer

/-- The characters after which an operand is awaited are a few signs. -/
theorem awaitsOperand_iff {c : Char} :
    awaitsOperand c = true ↔ c ∈ ['-', '+', '*', '/', '^', '(', ','] := by
  simp [awaitsOperand, isSign, or_assoc]

/-- An operand is awaited where the last character before says so. -/
theorem head_awaitsOperand_iff {before : List Char} :
    before.head?.any awaitsOperand = true ↔ OperandAwaited before := by
  -- Both look at the last character before the place, if there is one.
  simp only [OperandAwaited, Option.any_eq_true, Option.mem_def, awaitsOperand_iff]

/-- A place for an operand is the beginning, or one where an operand is awaited. -/
theorem operandPlace_iff {before : List Char} :
    operandPlace before = true ↔ before = [] ∨ OperandAwaited before := by
  rw [operandPlace, Bool.or_eq_true, List.isEmpty_iff, head_awaitsOperand_iff]

/-- An operand has ended where the characters before show it. -/
theorem endsOperand_iff {before : List Char} :
    endsOperand before = true ↔ OperandEnded before := by
  -- An `x` is looked at together with the character before it, so that there are three cases.
  cases before with
  | nil => simp [endsOperand, endsVariable, OperandEnded]
  | cons c earlier =>
    cases earlier <;> simp [endsOperand, endsVariable, OperandEnded]

/-- A call is read where a row of letters leads to an opening parenthesis. -/
theorem callLength_ne_zero_iff {after : List Char} :
    callLength after ≠ 0 ↔ (∃ c ∈ after.head?, c.isAlpha = true) ∧ LeadsToCall after := by
  unfold callLength LeadsToCall
  cases after with
  | nil => simp
  -- Without a letter at the start, the name would be empty.
  | cons c later => by_cases letter : c.isAlpha = true <;> simp [letter]

/-- An operand starts where the characters after show it. -/
theorem startsOperand_iff {after : List Char} :
    startsOperand after = true ↔ OperandStarted after := by
  -- A call is the only start that is longer than two characters.
  have called := @callLength_ne_zero_iff after
  unfold OperandStarted
  cases after with
  | nil => simp [startsOperand, startsVariable, callLength]
  | cons c later =>
    simp only [startsOperand, Bool.or_eq_true, bne_iff_ne, called, startsVariable, or_assoc]
    cases later <;> simp [or_comm, or_left_comm]

end Recognizer

/-- A place is ambiguous when its character is an x that may be called. -/
def Ambiguous (before : List Char) (c : Char) (after : List Char) : Prop :=
  c = 'x' ∧ after.head? = some '(' ∧ (before = [] ∨ OperandAwaited before)

namespace Recognizer

/-- No operand is awaited after a word character. -/
theorem not_operandAwaited_of_isWord {before : List Char} {c : Char} (word : Text.isWord c = true) :
    ¬OperandAwaited (c :: before) := by
  -- No word character is a sign, a parenthesis or a comma.
  rw [← head_awaitsOperand_iff]
  simp [(of_isWord word).1]

/-- No letter comes right before a place for an operand. -/
theorem dropWhile_of_operandPlace {before : List Char} (place : operandPlace before = true) :
    before.dropWhile Char.isAlpha = before := by
  cases before with
  | nil => rfl
  | cons c earlier =>
    -- A letter would be a word character, after which no operand is awaited.
    rcases operandPlace_iff.mp place with beginning | awaited
    · cases beginning
    · refine List.dropWhile_cons_of_neg fun letter => ?_
      exact not_operandAwaited_of_isWord (Text.isWord_of_isAlpha letter) awaited

/-- The letters of a name that is called are covered, where it comes at the place of an operand. -/
theorem covered_of_name {before earlier later after : List Char} {c : Char}
    (place : operandPlace before = true)
    (letters : ∀ d ∈ earlier ++ c :: later, d.isAlpha = true) :
    Covered (earlier.reverse ++ before) c (later ++ '(' :: after) := by
  -- The letters on either side are passed over on the way to the name's ends.
  have passed : (earlier.reverse ++ before).dropWhile Char.isAlpha = before := by
    rw [List.dropWhile_append_of_pos (by simpa using fun d member => letters d (by simp [member])),
      dropWhile_of_operandPlace place]
  have called : LeadsToCall (later ++ '(' :: after) := by
    have paren : Char.isAlpha '(' ≠ true := by decide
    rw [LeadsToCall, List.dropWhile_append_of_pos fun d member => letters d (by simp [member]),
      List.dropWhile_cons_of_neg paren, List.head?_cons]
  exact .name (letters c (by simp)) (passed.symm ▸ operandPlace_iff.mp place) called

/-- A character that a token starts with is covered. -/
theorem covered_of_matchLength {form : Recognizer} {before rest : List Char} {c : Char}
    (matched : form.matchLength before (c :: rest) ≠ 0) : Covered before c rest := by
  -- Each form is one of the cases, or two of them.
  cases form with
  | literal =>
    rcases literal_cases matched with ⟨numeral, -⟩ | ⟨-, first, noneAfter, noneBefore⟩
    · obtain ⟨d, others, lexeme, isDigit⟩ := numeral.head
      cases length : literal.matchLength before (c :: rest) with
      | zero => exact absurd length matched
      | succ more =>
        rw [length, List.take_succ_cons, List.cons.injEq] at lexeme
        exact .digit (lexeme.1 ▸ isDigit)
    · obtain rfl : c = 'x' := by simpa using first
      exact .letter (forall_mem_of_any_eq_false noneBefore)
        (forall_mem_of_any_eq_false noneAfter)
  | binaryOperator =>
    -- The sign is one of five, which are listed in another order.
    have opened : c ∈ ['-', '+', '*', '/', '^'] := by
      simpa [opens, isSign] using opens_of_matchLength matched
    have isSign : c ∈ ['+', '-', '*', '/', '^'] := by
      simp only [List.mem_cons, List.not_mem_nil, or_false] at opened ⊢
      tauto
    exact .sign isSign (endsOperand_iff.mp (binaryOperator_cases matched))
  | unaryMinus =>
    obtain rfl : c = '-' := by simpa [opens] using opens_of_matchLength matched
    rcases unaryMinus_cases matched with beginning | ⟨awaits, starts⟩
    · exact .leadingMinus beginning
    · exact .minus (head_awaitsOperand_iff.mp awaits) (startsOperand_iff.mp starts)
  | leftParen | rightParen | comma =>
    refine .mark ?_
    have opened := opens_of_matchLength matched
    simp only [opens, beq_iff_eq] at opened
    simp [opened]
  | function =>
    -- The first letter of the name has none of its letters before it.
    obtain ⟨place, name, after, split, letters, length⟩ := function_cases matched
    cases name with
    | nil => exact absurd length matched
    | cons d later =>
      obtain ⟨rfl, rfl⟩ := List.cons.inj split
      exact @covered_of_name _ [] _ _ _ place letters

/-- Where a covered character starts no token, it goes on with a numeral or a name. -/
theorem matchLength_or_within {before rest : List Char} {c : Char}
    (covered : Covered before c rest) :
    (∃ form : Recognizer, form.matchLength before (c :: rest) ≠ 0) ∨
      (c = '.' ∧ (∃ d ∈ before.head?, Text.isDigit d = true) ∧
        ∃ d ∈ rest.head?, Text.isDigit d = true) ∨
      (c.isAlpha = true ∧ (∃ d ∈ before.head?, d.isAlpha = true) ∧
        operandPlace (before.dropWhile Char.isAlpha) = true ∧ LeadsToCall rest) := by
  -- Each case belongs to a form; only points and letters may stand within a token.
  cases covered with
  | digit isDigit =>
    refine .inl ⟨literal, ?_⟩
    simp [matchLength, numeralLength, numeralRest, isDigit]
  | point digitBefore digitAfter => exact .inr (.inl ⟨rfl, digitBefore, digitAfter⟩)
  | mark isMark =>
    simp only [List.mem_cons, List.not_mem_nil, or_false] at isMark
    rcases isMark with rfl | rfl | rfl
    · exact .inl ⟨leftParen, by simp [matchLength, single]⟩
    · exact .inl ⟨rightParen, by simp [matchLength, single]⟩
    · exact .inl ⟨comma, by simp [matchLength, single]⟩
  | letter noneBefore noneAfter =>
    have quiet {value : Option Char} (none : ∀ d ∈ value, Text.isWord d = false) :
        value.any Text.isWord = false := by
      cases value <;> simp_all
    -- Without words on both sides, the letter is the variable.
    have matched := matchLength_variable (quiet noneBefore) (quiet noneAfter)
    exact .inl ⟨literal, by simp [matched]⟩
  | sign isSign ended =>
    refine .inl ⟨binaryOperator, ?_⟩
    have signed : Recognizer.isSign c = true := by
      simp only [Recognizer.isSign, List.contains_eq_mem, decide_eq_true_eq]
      simp only [List.mem_cons, List.not_mem_nil, or_false] at isSign ⊢
      tauto
    simp [matchLength, signed, endsOperand_iff.mpr ended, single]
  | leadingMinus beginning =>
    refine .inl ⟨unaryMinus, ?_⟩
    simp [matchLength, isUnaryMinus, beginning, single]
  | minus awaited started =>
    refine .inl ⟨unaryMinus, ?_⟩
    simp [matchLength, isUnaryMinus, head_awaitsOperand_iff.mpr awaited,
      startsOperand_iff.mpr started, single]
  | name isLetter place called =>
    rw [← operandPlace_iff] at place
    by_cases letterBefore : ∃ d ∈ before.head?, d.isAlpha = true
    · exact .inr (.inr ⟨isLetter, letterBefore, place, called⟩)
    · -- The first letter of a name starts its token.
      have start : before.dropWhile Char.isAlpha = before := by
        cases before with
        | nil => rfl
        | cons d earlier => exact List.dropWhile_cons_of_neg (by simpa using letterBefore)
      have call : callLength (c :: rest) ≠ 0 := by
        refine callLength_ne_zero_iff.mpr ⟨⟨c, rfl, isLetter⟩, ?_⟩
        rwa [LeadsToCall, List.dropWhile_cons_of_pos isLetter]
      rw [start] at place
      exact .inl ⟨function, by simp [matchLength, place, call]⟩

end Recognizer

/-- The place between two tokens: neither a numeral nor a name that is called goes on there. -/
structure Boundary (before text : List Char) : Prop where
  point : (∃ c ∈ before.head?, Text.isDigit c = true) → text.head? = some '.' →
    ∀ c ∈ text.tail.head?, Text.isDigit c = false
  name : (∃ c ∈ before.head?, c.isAlpha = true) → (∃ c ∈ text.head?, c.isAlpha = true) →
    Recognizer.operandPlace (before.dropWhile Char.isAlpha) = true → ¬LeadsToCall text

namespace Boundary

/-- Nothing goes on at the beginning of a text. -/
theorem beginning (text : List Char) : Boundary [] text :=
  ⟨by simp, by simp⟩

/-- Between two tokens, a character that starts no token is not covered. -/
theorem not_covered {before rest : List Char} {c : Char} (boundary : Boundary before (c :: rest))
    (silent : ∀ form : Recognizer, form.matchLength before (c :: rest) = 0) :
    ¬Covered before c rest := by
  -- A covered character starts a token, or goes on with one across the boundary.
  intro covered
  rcases Recognizer.matchLength_or_within covered with ⟨form, matched⟩ |
    ⟨rfl, digitBefore, d, after, digitAfter⟩ | ⟨letter, letterBefore, place, called⟩
  · exact matched (silent form)
  · exact absurd digitAfter (by simp [boundary.point digitBefore rfl d after])
  · refine boundary.name letterBefore ⟨c, rfl, letter⟩ place ?_
    rwa [LeadsToCall, List.dropWhile_cons_of_pos letter]

/-- A character of no token is passed over. -/
theorem loose {before rest : List Char} {c : Char} (boundary : Boundary before (c :: rest))
    (silent : ∀ form : Recognizer, form.matchLength before (c :: rest) = 0) :
    Boundary (c :: before) rest := by
  -- A digit or the first letter of a name would have started a token.
  have bare := boundary.not_covered silent
  constructor
  · rintro ⟨d, same, isDigit⟩
    obtain rfl : c = d := by simpa using same
    exact absurd (.digit isDigit) bare
  · rintro ⟨d, same, letter⟩ - place called
    obtain rfl : c = d := by simpa using same
    rw [List.dropWhile_cons_of_pos letter, Recognizer.operandPlace_iff] at place
    exact bare (.name letter place called)

/-- What is between a token and the text after it, by the token's last character. -/
theorem ofLast {before earlier after : List Char} {last : Char}
    (point : Text.isDigit last = true → after.head? = some '.' →
      ∀ c ∈ after.tail.head?, Text.isDigit c = false)
    (name : last.isAlpha = true → ∀ c ∈ after.head?, c.isAlpha = false) :
    Boundary ((earlier ++ [last]).reverse ++ before) after := by
  -- The last character of the token is the first one backwards.
  have reversed : (earlier ++ [last]).reverse ++ before = last :: (earlier.reverse ++ before) := by
    simp
  rw [reversed]
  constructor
  · rintro ⟨c, same, isDigit⟩
    obtain rfl : last = c := by simpa using same
    exact point isDigit
  · rintro ⟨c, same, letter⟩ ⟨d, next, letterAfter⟩
    obtain rfl : last = c := by simpa using same
    exact absurd letterAfter (by simp [name letter d next])

end Boundary

namespace Recognizer

/-- Where a numeral ends, nothing of a numeral goes on. -/
theorem numeralRest_drop (text : List Char) : numeralRest (text.drop (numeralRest text)) = 0 := by
  -- The induction reads one more character of the numeral.
  induction text with
  | nil => rfl
  | cons c rest ih =>
    -- Either the character is part of the numeral, or the numeral has ended before it.
    by_cases part : (Text.isDigit c || (c == '.' && rest.head?.any Text.isDigit)) = true
    · rwa [numeralRest, if_pos part, List.drop_succ_cons]
    · rw [numeralRest, if_neg part, List.drop_zero, numeralRest, if_neg part]

/-- A token that is matched is followed by a boundary. -/
theorem boundary_of_match {form : Recognizer} {before lexeme after : List Char}
    (nonempty : lexeme ≠ [])
    (matched : form.matchLength before (lexeme ++ after) = lexeme.length) :
    Boundary (lexeme.reverse ++ before) after := by
  have found := found_of_matched matched nonempty
  by_cases isLiteral : form = literal
  · subst isLiteral
    have shape := literal_cases found
    rw [matched, List.take_left] at shape
    rcases shape with ⟨numeral, -⟩ | ⟨length, first, noWord, -⟩
    · -- A numeral would have taken a point with a digit after it.
      obtain ⟨last, earlier, ended, isDigit⟩ := numeral.last
      have whole : numeralRest (lexeme ++ after) = lexeme.length := by
        obtain ⟨c, later, rfl, isDigit⟩ := numeral.head
        have nonzero : numeralRest (c :: (later ++ after)) ≠ 0 := by simp [numeralRest, isDigit]
        simpa [matchLength, numeralLength, isDigit, nonzero] using matched
      have stopped := numeralRest_drop (lexeme ++ after)
      rw [whole, List.drop_left] at stopped
      rw [ended]
      refine .ofLast (fun _ point c next => ?_) fun letter => ?_
      · obtain ⟨rest, rfl⟩ := List.head?_eq_some_iff.mp point
        rw [List.tail_cons] at next
        cases digitAfter : Text.isDigit c with
        | false => rfl
        | true =>
          rw [Option.mem_def] at next
          simp [numeralRest, next, digitAfter] at stopped
      · exact absurd isDigit (by simp [Text.isDigit_of_isAlpha letter])
    · -- No word goes on with the variable.
      obtain ⟨c, rfl⟩ := List.length_eq_one_iff.mp length
      obtain rfl : c = 'x' := by simpa using first
      refine @Boundary.ofLast _ [] _ _ (fun isDigit => absurd isDigit (by decide))
        fun _ c next => ?_
      have none := forall_mem_of_any_eq_false noWord c (by simpa using next)
      cases letter : c.isAlpha with
      | false => rfl
      | true => exact absurd (Text.isWord_of_isAlpha letter) (by simp [none])
  · by_cases isFunction : form = function
    · -- A name ends with a letter, and a parenthesis comes after it.
      subst isFunction
      obtain ⟨-, name, rest, split, letters, length⟩ := function_cases found
      obtain ⟨rfl, rfl⟩ := List.append_inj split (matched.symm.trans length)
      have letter := letters (lexeme.getLast nonempty) (List.getLast_mem nonempty)
      rw [← List.dropLast_concat_getLast nonempty]
      refine .ofLast (fun isDigit => ?_) fun _ c next => ?_
      · exact absurd isDigit (by simp [Text.isDigit_of_isAlpha letter])
      · obtain rfl : '(' = c := by simpa using next
        decide
    · -- Tokens of the other forms are single characters of punctuation.
      have short := matchLength_le_one isLiteral isFunction before (lexeme ++ after)
      have positive := List.length_pos_iff.mpr nonempty
      obtain ⟨c, rfl⟩ := List.length_eq_one_iff.mp (show lexeme.length = 1 by omega)
      obtain ⟨noDigit, noLetter, -⟩ := of_mem_punctuation
        (mem_punctuation_of_opens (opens_of_matchLength found) isLiteral isFunction)
      exact @Boundary.ofLast _ [] _ _ (fun isDigit => absurd isDigit (by simp [noDigit]))
        fun letter => absurd letter (by simp [noLetter])

end Recognizer

/-- A numeral consists of digits, and of points between two digits. -/
theorem IsNumeral.digit_or_between {text : List Char} (numeral : IsNumeral text) :
    ∀ {earlier later : List Char} {d : Char}, text = earlier ++ d :: later →
      Text.isDigit d = true ∨ (d = '.' ∧ (∃ c ∈ earlier.getLast?, Text.isDigit c = true) ∧
        ∃ c ∈ later.head?, Text.isDigit c = true) := by
  -- The place is the first digit, the point after it, or within the rest of the numeral.
  induction numeral with
  | digit isDigit =>
    intro earlier later d split
    cases earlier with
    | nil => exact .inl ((List.cons.inj split).1 ▸ isDigit)
    | cons first others => simp at split
  | more isDigit _ ih =>
    intro earlier later d split
    cases earlier with
    | nil => exact .inl ((List.cons.inj split).1 ▸ isDigit)
    | cons first others =>
      obtain ⟨rfl, rest⟩ := List.cons.inj split
      rcases ih rest with here | ⟨dot, ⟨c, last, digitBefore⟩, digitAfter⟩
      · exact .inl here
      · exact .inr ⟨dot, ⟨c, by simp_all [List.getLast?_cons], digitBefore⟩, digitAfter⟩
  | point isDigit numeral ih =>
    intro earlier later d split
    cases earlier with
    | nil => exact .inl ((List.cons.inj split).1 ▸ isDigit)
    | cons first others =>
      obtain ⟨rfl, rest⟩ := List.cons.inj split
      cases others with
      | nil =>
        obtain ⟨rfl, rfl⟩ := List.cons.inj rest
        obtain ⟨c, more, rfl, digitAfter⟩ := numeral.head
        exact .inr ⟨rfl, ⟨_, rfl, isDigit⟩, ⟨c, rfl, digitAfter⟩⟩
      | cons second others =>
        obtain ⟨-, rest⟩ := List.cons.inj rest
        rcases ih rest with here | ⟨dot, ⟨c, last, digitBefore⟩, digitAfter⟩
        · exact .inl here
        · exact .inr ⟨dot, ⟨c, by simp_all [List.getLast?_cons], digitBefore⟩, digitAfter⟩

/-- The characters of a token after its first one are covered, and their places not ambiguous. -/
theorem Recognizer.covered_within {form : Recognizer} {before earlier later after : List Char}
    {c d : Char} (matched : form.matchLength before ((c :: (earlier ++ d :: later)) ++ after) =
      (c :: (earlier ++ d :: later)).length) :
    Covered (earlier.reverse ++ c :: before) d (later ++ after) ∧
      ¬Ambiguous (earlier.reverse ++ c :: before) d (later ++ after) := by
  -- Only numerals and names are longer than one character.
  have found := found_of_matched matched (by simp)
  by_cases isLiteral : form = literal
  · subst isLiteral
    have shape := literal_cases found
    rw [matched, List.take_left] at shape
    rcases shape with ⟨numeral, -⟩ | ⟨length, -⟩
    · -- A point of a numeral has digits on both sides, and nothing in it is an x.
      rcases @IsNumeral.digit_or_between _ numeral (c :: earlier) later d rfl with
        isDigit | ⟨rfl, ⟨e, last, digitBefore⟩, ⟨g, next, digitAfter⟩⟩
      · -- A digit is no `x`.
        refine ⟨.digit isDigit, ?_⟩
        rintro ⟨rfl, -⟩
        exact absurd isDigit (by decide)
      · refine ⟨.point ⟨e, ?_, digitBefore⟩ ⟨g, ?_, digitAfter⟩, by simp [Ambiguous]⟩
        · have reversed : earlier.reverse ++ c :: before = (c :: earlier).reverse ++ before := by
            simp
          rw [reversed, Option.mem_def, List.head?_append, List.head?_reverse]
          simp_all
        · simp_all
    · simp at length
  · by_cases isFunction : form = function
    · -- All characters of a name are letters, after which no operand is awaited.
      subst isFunction
      obtain ⟨place, name, rest, split, letters, length⟩ := function_cases found
      obtain ⟨rfl, rfl⟩ := List.append_inj split (matched.symm.trans length)
      have reversed : earlier.reverse ++ c :: before = (c :: earlier).reverse ++ before := by simp
      rw [reversed]
      refine ⟨covered_of_name place letters, ?_⟩
      rintro ⟨-, -, beginning | awaited⟩
      · simp at beginning
      · obtain ⟨last, prior, backwards⟩ := List.exists_cons_of_ne_nil
          (List.reverse_ne_nil_iff.mpr (List.cons_ne_nil c earlier))
        have member : last ∈ c :: earlier := by
          rw [← List.mem_reverse, backwards]
          exact List.mem_cons_self
        have letter : last.isAlpha = true := letters last (by simp at member ⊢; tauto)
        rw [backwards] at awaited
        exact not_operandAwaited_of_isWord (Text.isWord_of_isAlpha letter) awaited
    · have short := matchLength_le_one isLiteral isFunction before
        ((c :: (earlier ++ d :: later)) ++ after)
      simp only [matched, List.length_cons, List.length_append] at short
      omega

namespace Recognizer

/-- The claims on an ambiguous place are those of the variable and of the function. -/
theorem claimsAt_of_ambiguous {before after : List Char} {c : Char}
    (ambiguous : Ambiguous before c after) :
    claimsAt before (c :: after) = [⟨literal, ['x']⟩, ⟨function, ['x']⟩] := by
  obtain ⟨rfl, paren, place⟩ := ambiguous
  obtain ⟨rest, rfl⟩ := List.head?_eq_some_iff.mp paren
  rw [← operandPlace_iff] at place
  -- No word ends at the place of an operand, so that the variable stands alone there.
  have noneBefore : before.head?.any Text.isWord = false := by
    cases before with
    | nil => rfl
    | cons last earlier =>
      cases word : Text.isWord last with
      | false => simpa using word
      | true =>
        rw [operandPlace_iff] at place
        exact absurd (place.resolve_left (List.cons_ne_nil last earlier))
          (not_operandAwaited_of_isWord word)
  -- What comes after is a parenthesis.
  have noneAfter : ('(' :: rest).head?.any Text.isWord = false := by
    simp only [List.head?_cons, Option.any_some]
    decide
  have lone := matchLength_variable noneBefore noneAfter
  have called := @matchLength_name _ ['x'] place (List.all_eq_true.mp rfl) rest
  simp only [List.singleton_append, List.length_singleton] at called
  -- All other forms start with punctuation.
  have silent (form : Recognizer) (other : form.opens 'x' = false) :
      form.matchLength before ('x' :: '(' :: rest) = 0 := by
    by_contra matched
    simp [opens_of_matchLength matched] at other
  simp [claimsAt, all, lone, called, silent binaryOperator rfl, silent unaryMinus rfl,
    silent leftParen rfl, silent rightParen rfl, silent comma rfl]

/-- After an operand, no minus sign is unary. -/
theorem not_awaited_of_ended {before after : List Char}
    (matched : binaryOperator.matchLength before after ≠ 0) {started : Prop} :
    ¬(before = [] ∨ before.head?.any awaitsOperand = true ∧ started) := by
  -- An operand ends with a word character or with a closing parenthesis.
  have ended := endsOperand_iff.mp (binaryOperator_cases matched)
  have quiet {c : Char} (word : Text.isWord c = true) : awaitsOperand c = false :=
    (of_isWord word).1
  rintro (rfl | ⟨awaits, -⟩)
  · simp [OperandEnded] at ended
  · rcases ended with ⟨c, last, rfl | isDigit⟩ | ⟨earlier, rfl, -⟩
    · rw [Option.mem_def.mp last] at awaits
      exact absurd awaits (by decide)
    · rw [Option.mem_def.mp last] at awaits
      simp [quiet (Text.isWord_of_isDigit isDigit)] at awaits
    · rw [List.head?_cons] at awaits
      exact absurd awaits (by decide)

/-- Only ambiguous places are claimed by more than one form. -/
theorem ambiguous_of_distinct {form other : Recognizer} {before after : List Char} {c : Char}
    (distinct : form ≠ other) (matched : form.matchLength before (c :: after) ≠ 0)
    (otherMatched : other.matchLength before (c :: after) ≠ 0) : Ambiguous before c after := by
  -- The variable and a function meet at a lone x before a parenthesis.
  have meet (lone : literal.matchLength before ('x' :: after) ≠ 0)
      (call : function.matchLength before ('x' :: after) ≠ 0) : Ambiguous before 'x' after := by
    rcases literal_cases lone with ⟨numeral, -⟩ | ⟨-, -, noneAfter, -⟩
    · obtain ⟨d, others, lexeme, isDigit⟩ := numeral.head
      cases length : literal.matchLength before ('x' :: after) with
      | zero => exact absurd length lone
      | succ more =>
        rw [length, List.take_succ_cons, List.cons.injEq] at lexeme
        rw [← lexeme.1] at isDigit
        exact absurd isDigit (by decide)
    · obtain ⟨place, name, rest, split, letters, length⟩ := function_cases call
      refine ⟨rfl, ?_, operandPlace_iff.mp place⟩
      -- Another letter of the name would go on with the variable as a word.
      cases name with
      | nil => exact absurd length call
      | cons first others =>
        obtain ⟨-, rfl⟩ := List.cons.inj split
        cases others with
        | nil => rfl
        | cons second others =>
          have word := Text.isWord_of_isAlpha (letters second (by simp))
          simp [word] at noneAfter
  rcases eq_of_opens (opens_of_matchLength matched) (opens_of_matchLength otherMatched) with same |
    ⟨rfl, ⟨rfl, rfl⟩ | ⟨rfl, rfl⟩⟩ | ⟨rfl, ⟨rfl, rfl⟩ | ⟨rfl, rfl⟩⟩
  · exact absurd same distinct
  · exact meet matched otherMatched
  · exact meet otherMatched matched
  · exact absurd (unaryMinus_cases otherMatched) (not_awaited_of_ended matched)
  · exact absurd (unaryMinus_cases matched) (not_awaited_of_ended otherMatched)

end Recognizer

/-- What a column shows of a character: whether it is covered, and whether it is ambiguous. -/
structure Shown (before : List Char) (c : Char) (after : List Char) (summary : Summary) : Prop where
  character : summary.character = c
  covered : summary.isCovered = true ↔ Covered before c after
  sole : ¬Ambiguous before c after → summary.claims.length ≤ 1
  both : Ambiguous before c after → summary.claims = [⟨.literal, ['x']⟩, ⟨.function, ['x']⟩]

/-- What a row of columns shows of a text, character by character. -/
inductive ShownAll : (before text : List Char) → List Summary → Prop where
  | nil {before : List Char} : ShownAll before [] []
  | cons {before rest : List Char} {c : Char} {summary : Summary} {summaries : List Summary}
      (first : Shown before c rest summary) (others : ShownAll (c :: before) rest summaries) :
      ShownAll before (c :: rest) (summary :: summaries)

namespace Shown

/-- A character of no token is shown as uncovered. -/
theorem loose {before rest : List Char} {c : Char} (boundary : Boundary before (c :: rest))
    (unclaimed : Recognizer.claimsAt before (c :: rest) = []) :
    Shown before c rest ⟨c, [], false⟩ := by
  -- An ambiguous place would have claims on it.
  have silent := Recognizer.claimsAt_eq_nil_iff.mp unclaimed
  refine ⟨rfl, iff_of_false Bool.false_ne_true (boundary.not_covered silent), by simp, ?_⟩
  intro ambiguous
  rw [Recognizer.claimsAt_of_ambiguous ambiguous] at unclaimed
  cases unclaimed

/-- The first character of a token is shown as covered, with all claims on its place. -/
theorem opening {before rest : List Char} {c : Char} {claims : List Claim}
    (claimed : Recognizer.claimsAt before (c :: rest) = claims) (nonempty : claims ≠ []) :
    Shown before c rest ⟨c, claims, true⟩ := by
  -- Two claims would be those of two forms that match here.
  obtain ⟨claim, rivals, rfl⟩ := List.exists_cons_of_ne_nil nonempty
  have found {other : Claim} (member : other ∈ claim :: rivals) :
      other.form.matchLength before (c :: rest) ≠ 0 :=
    (Recognizer.mem_claimsAt.mp (claimed ▸ member)).1
  refine ⟨rfl, iff_of_true rfl (Recognizer.covered_of_matchLength (found List.mem_cons_self)),
    fun sole => ?_, fun ambiguous => ?_⟩
  · -- Without a second claim there is nothing to show.
    cases rivals with
    | nil => exact Nat.le_refl 1
    | cons rival others =>
      have nodup := Recognizer.nodup_claimsAt before (c :: rest)
      rw [claimed] at nodup
      have distinct : claim.form ≠ rival.form := by
        simp only [List.map_cons, List.nodup_cons, List.mem_cons, not_or] at nodup
        exact nodup.1.1
      exact absurd (Recognizer.ambiguous_of_distinct distinct (found (by simp)) (found (by simp)))
        sole
  · exact claimed.symm.trans (Recognizer.claimsAt_of_ambiguous ambiguous)

end Shown

namespace ShownAll

/-- The characters within a token are shown as covered, and what comes after it as before. -/
theorem within {inner before rest : List Char} {summaries : List Summary}
    (each : ∀ earlier d later, inner = earlier ++ d :: later →
      Covered (earlier.reverse ++ before) d (later ++ rest) ∧
        ¬Ambiguous (earlier.reverse ++ before) d (later ++ rest))
    (others : ShownAll (inner.reverse ++ before) rest summaries) :
    ShownAll before (inner ++ rest) (inner.map Summary.within ++ summaries) := by
  -- The induction takes one character of the token at a time.
  induction inner generalizing before with
  | nil => exact others
  | cons d later ih =>
    obtain ⟨covered, sole⟩ := each [] d later rfl
    refine .cons ⟨rfl, iff_of_true rfl covered, fun _ => Nat.zero_le 1, fun both => ?_⟩ ?_
    · -- Within a token, no place is ambiguous.
      exact absurd both sole
    · refine ih (fun earlier e last split => ?_) (by simpa using others)
      simpa using each (d :: earlier) e last (by simp [split])

/-- From any boundary on, a scan of a text shows each of its characters. -/
theorem pieces {before text : List Char} (boundary : Boundary before text) :
    ShownAll before text ((Formula.pieces before text).flatMap Piece.summaries) := by
  -- The induction follows the scan, which steps from one boundary to the next.
  fun_induction Formula.pieces before text with
  | case1 before => exact .nil
  | case2 before c rest unclaimed ih =>
    have silent := Recognizer.claimsAt_eq_nil_iff.mp unclaimed
    exact .cons (.loose boundary unclaimed) (ih (boundary.loose silent))
  | case3 before c rest claim rivals claimed ih =>
    obtain ⟨form, characters⟩ := claim
    obtain ⟨length, lexeme, split⟩ := Recognizer.lexeme_of_claimsAt claimed
    generalize characters.tail = inner at *
    generalize rest.drop inner.length = after at *
    subst lexeme split
    -- The lexeme is as long as its match, and ends at the next boundary.
    have matched : form.matchLength before ((c :: inner) ++ after) = (c :: inner).length := length
    have next := Recognizer.boundary_of_match (List.cons_ne_nil c inner) matched
    rw [List.reverse_cons, List.append_assoc, List.singleton_append] at next
    refine .cons (.opening claimed (List.cons_ne_nil _ _)) (.within ?_ (ih next))
    rintro earlier d later rfl
    exact Recognizer.covered_within matched

/-- What is shown of the character at a place depends on what comes before and after it. -/
theorem shown_of_getElem? {before text : List Char} {summaries : List Summary}
    (all : ShownAll before text summaries) :
    ∀ {place : Nat} {summary : Summary}, summaries[place]? = some summary →
      ∃ c, text[place]? = some c ∧
        Shown ((text.take place).reverse ++ before) c (text.drop (place + 1)) summary := by
  -- The place is the first one, or one among the others.
  induction all with
  | nil => simp
  | @cons before rest c summary summaries first others ih =>
    intro place shown found
    cases place with
    | zero =>
      obtain rfl : summary = shown := by simpa using found
      exact ⟨c, rfl, first⟩
    | succ place =>
      obtain ⟨d, here, shows⟩ := ih (by simpa using found)
      exact ⟨d, here, by simpa using shows⟩

/-- Every character is shown once. -/
theorem length_eq {before text : List Char} {summaries : List Summary}
    (all : ShownAll before text summaries) : summaries.length = text.length := by
  -- Each step of the relation shows one character.
  induction all with
  | nil => rfl
  | cons first others ih => simp [ih]

end ShownAll

/-- The column at a place shows whether its character is covered, and whether it is ambiguous. -/
theorem shown_of_columns {text : List Char} {place : Nat} {column : Column}
    (found : (columns text)[place]? = some column) :
    ∃ c, text[place]? = some c ∧
      Shown (text.take place).reverse c (text.drop (place + 1)) column.summary := by
  -- The columns show what the pieces show, from the beginning of the text.
  have all := ShownAll.pieces (Boundary.beginning text)
  rw [← summaries_columns] at all
  simpa using all.shown_of_getElem? (by rw [List.getElem?_map, found]; rfl)

/-- There is one column for each character. -/
theorem length_columns (text : List Char) : (columns text).length = text.length := by
  -- The columns are as many as the summaries, and these as many as the characters.
  have all := ShownAll.pieces (Boundary.beginning text)
  rw [← summaries_columns] at all
  simpa using all.length_eq

end Formula
