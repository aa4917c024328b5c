import Formula.Expression
import Formula.Proofs.Lexer.Lexeme
import Formula.Proofs.Lexer.Scan

/-! The language of the lexer: which rows of tokens it reads, and from which texts. -/

namespace Formula

namespace Kind

/-- The kinds of token that end an operand. -/
def endsOperand : Kind → Bool
  | literal | rightParen => true
  | _ => false

/-- The kinds of token after which an operand is awaited. -/
def awaitsOperand : Kind → Bool
  | operator | leftParen | comma => true
  | _ => false

/-- The kinds of token that start an operand. -/
def startsOperand : Kind → Bool
  | literal | function | leftParen => true
  | _ => false

/-- The kinds of token that are written with word characters. -/
def isWord : Kind → Bool
  | literal | function => true
  | _ => false

/-- Words start operands, and are no parentheses. -/
theorem of_isWord {kind : Kind} (word : kind.isWord = true) :
    kind.startsOperand = true ∧ kind.awaitsOperand = false ∧ (kind == leftParen) = false := by
  cases kind <;> first | exact ⟨rfl, rfl, rfl⟩ | cases word

/-- Nothing that ends an operand awaits one. -/
theorem awaitsOperand_of_endsOperand {kind : Kind} (ends : kind.endsOperand = true) :
    kind.awaitsOperand = false := by
  cases kind <;> first | rfl | cases ends

/-- Besides words, an opening parenthesis starts an operand and a closing one ends it. -/
theorem of_not_isWord {kind : Kind} (noWord : kind.isWord = false) :
    kind.startsOperand = (kind == leftParen) ∧ kind.endsOperand = (kind == rightParen) := by
  cases kind <;> first | exact ⟨rfl, rfl⟩ | cases noWord

end Kind

namespace Token

/-- A minus sign with a single operand goes by a name of its own. -/
def isUnaryMinus (token : Token) : Bool :=
  token.kind == .operator && token.text == Operation.unaryMinus

/-- The characters that a token is written with, a unary minus as a minus sign. -/
def lexeme (token : Token) : List Char :=
  if token.isUnaryMinus then ['-'] else token.text.toList

/-- What tokens of each kind are written with. -/
def Spelled (token : Token) : Prop :=
  match token.kind with
  | .literal => token.text = variableName ∨ IsNumeral token.text.toList
  | .operator => token.text ∈ ["+", "-", "*", "/", "^", Operation.unaryMinus]
  | .leftParen => token.text = "("
  | .rightParen => token.text = ")"
  | .function =>
    token.text ≠ "" ∧ (∀ c ∈ token.text.toList, c.isAlpha = true) ∧ token.text ≠ variableName
  | .comma => token.text = ","

/-- The form that a token is recognized by. -/
def form (token : Token) : Recognizer :=
  match token.kind with
  | .literal => .literal
  | .operator => if token.isUnaryMinus then .unaryMinus else .binaryOperator
  | .leftParen => .leftParen
  | .rightParen => .rightParen
  | .function => .function
  | .comma => .comma

end Token

/-- The characters of a row of tokens, one token after the other. -/
def spell (tokens : List Token) : List Char :=
  tokens.flatMap Token.lexeme

/-- The rules on a token between its neighbours. -/
structure Placed (policy : ConflictPolicy) (previous : Option Token) (token : Token)
    (next : Option Token) : Prop where
  spelled : token.Spelled
  binary : token.kind = .operator → token.isUnaryMinus = false →
    previous.any (·.kind.endsOperand) = true
  unary : token.isUnaryMinus = true → previous = none ∨
    previous.any (·.kind.awaitsOperand) = true ∧ next.any (·.kind.startsOperand) = true
  function : token.kind = .function → previous.all (·.kind.awaitsOperand) = true ∧
    next.any (·.kind == .leftParen) = true
  literal : token.kind = .literal → previous.all (·.kind != .literal) = true
  call : policy = .strict → token.isVariable = true → next.any (·.kind == .leftParen) = true →
    previous.any (·.kind == .rightParen) = true

/-- The rules on a row of tokens that come after another token, if any. -/
def WellPlaced (policy : ConflictPolicy) (previous : Option Token) : List Token → Prop
  | [] => True
  | token :: rest => Placed policy previous token rest.head? ∧ WellPlaced policy (some token) rest

namespace Recognizer

/-- Punctuation is neither a digit, a letter, a word character nor a point. -/
theorem of_mem_punctuation {c : Char} (mark : c ∈ punctuation) :
    Text.isDigit c = false ∧ c.isAlpha = false ∧ Text.isWord c = false ∧ c ≠ 'x' ∧ c ≠ '.' := by
  -- There are eight characters to be looked at.
  have each : (punctuation.all fun c => !Text.isDigit c && (!c.isAlpha && (!Text.isWord c &&
      (c != 'x' && c != '.')))) = true := by
    decide +kernel
  simpa using List.all_eq_true.mp each c mark

/-- Word characters are neither parentheses nor points, and await no operand. -/
theorem of_isWord {c : Char} (word : Text.isWord c = true) :
    awaitsOperand c = false ∧ c ≠ ')' ∧ c ≠ '(' ∧ c ≠ '.' := by
  have each : ∀ c ∈ punctuation, Text.isWord c = false := fun c mark =>
    (of_mem_punctuation mark).2.2.1
  have apart : ∀ mark ∈ punctuation, c ≠ mark := by
    rintro mark listed rfl
    simp [each c listed] at word
  have notPoint : c ≠ '.' := by
    rintro rfl
    exact absurd word (by decide)
  simp only [punctuation, List.mem_cons, List.not_mem_nil, or_false, forall_eq_or_imp,
    forall_eq] at apart
  simp [awaitsOperand, isSign, apart, notPoint]

end Recognizer

namespace Token

/-- The form that a token is recognized by has its kind. -/
@[simp] theorem form_kind (token : Token) : token.form.kind = token.kind := by
  -- Only operators have two forms.
  unfold form
  cases kind : token.kind with
  | operator => cases unary : token.isUnaryMinus <;> rfl
  | literal | leftParen | rightParen | function | comma => rfl

/-- The unary minus has its own form. -/
theorem isUnaryMinus_of_form {token : Token} (form : token.form = .unaryMinus) :
    token.isUnaryMinus = true := by
  -- Tokens that are not a unary minus have a form of another name.
  cases unary : token.isUnaryMinus with
  | true => rfl
  | false =>
    cases kind : token.kind <;> simp [Token.form, kind, unary] at form

/-- The tokens of the four kinds without word characters are single punctuation characters. -/
theorem Spelled.punctuation {token : Token} (spelled : token.Spelled)
    (noWord : token.kind.isWord = false) :
    ∃ c ∈ Recognizer.punctuation, token.lexeme = [c] ∧
      Recognizer.awaitsOperand c = token.kind.awaitsOperand ∧
        (c == ')') = (token.kind == .rightParen) ∧ (c == '(') = (token.kind == .leftParen) := by
  -- The kinds are gone through with the few texts that each of them allows.
  obtain ⟨text, kind⟩ := token
  cases kind with
  | literal | function => cases noWord
  | operator =>
    simp only [Spelled, List.mem_cons, List.not_mem_nil, or_false] at spelled
    rcases spelled with rfl | rfl | rfl | rfl | rfl | rfl
    · exact ⟨'+', by decide⟩
    · exact ⟨'-', by decide⟩
    · exact ⟨'*', by decide⟩
    · exact ⟨'/', by decide⟩
    · exact ⟨'^', by decide⟩
    · exact ⟨'-', by decide⟩
  | leftParen =>
    simp only [Spelled] at spelled
    subst spelled
    exact ⟨'(', by decide⟩
  | rightParen =>
    simp only [Spelled] at spelled
    subst spelled
    exact ⟨')', by decide⟩
  | comma =>
    simp only [Spelled] at spelled
    subst spelled
    exact ⟨',', by decide⟩

/-- An operator is written with a single sign. -/
theorem Spelled.sign {token : Token} (spelled : token.Spelled) (kind : token.kind = .operator) :
    ∃ c, token.lexeme = [c] ∧ Recognizer.isSign c = true := by
  -- The texts of operators are listed, and the unary minus is written as a minus sign.
  obtain ⟨text, _⟩ := token
  simp only at kind
  subst kind
  simp only [Spelled, List.mem_cons, List.not_mem_nil, or_false] at spelled
  rcases spelled with rfl | rfl | rfl | rfl | rfl | rfl
  · exact ⟨'+', by decide⟩
  · exact ⟨'-', by decide⟩
  · exact ⟨'*', by decide⟩
  · exact ⟨'/', by decide⟩
  · exact ⟨'^', by decide⟩
  · exact ⟨'-', by decide⟩

/-- The tokens of words are written with their texts. -/
theorem lexeme_of_isWord {token : Token} (word : token.kind.isWord = true) :
    token.lexeme = token.text.toList := by
  -- Only operators may be written otherwise.
  obtain ⟨text, kind⟩ := token
  cases kind <;> first | rfl | cases word

/-- A literal is written as the variable or as a numeral. -/
theorem Spelled.literal {token : Token} (spelled : token.Spelled) (kind : token.kind = .literal) :
    (token.isVariable = true ∧ token.lexeme = ['x']) ∨
      (token.isVariable = false ∧ IsNumeral token.lexeme) := by
  -- A literal is spelled as one or the other, and has to be told from the other.
  have written : token.lexeme = token.text.toList := lexeme_of_isWord (kind ▸ rfl)
  simp only [Spelled, kind] at spelled
  rw [written]
  rcases spelled with named | numeral
  · exact .inl ⟨by simp [isVariable, kind, named], by simp [named, variableName]⟩
  · -- A numeral starts with a digit, which the variable's letter is not.
    have unnamed : token.text ≠ variableName := by
      intro named
      rw [named] at numeral
      exact absurd numeral.isDigit_head (by decide)
    exact .inr ⟨by simp [isVariable, unnamed], numeral⟩

/-- A function is written with a name other than the variable's letter. -/
theorem Spelled.function {token : Token} (spelled : token.Spelled)
    (kind : token.kind = .function) :
    token.lexeme ≠ [] ∧ (∀ c ∈ token.lexeme, c.isAlpha = true) ∧ token.lexeme ≠ ['x'] := by
  -- A name is written with its letters.
  have written : token.lexeme = token.text.toList := lexeme_of_isWord (kind ▸ rfl)
  simp only [Spelled, kind] at spelled
  obtain ⟨nonempty, letters, unnamed⟩ := spelled
  rw [written]
  refine ⟨by simpa using nonempty, letters, ?_⟩
  intro named
  exact unnamed (String.toList_injective named)

/-- A token is written with at least one character. -/
theorem Spelled.lexeme_ne_nil {token : Token} (spelled : token.Spelled) : token.lexeme ≠ [] := by
  -- Each kind is spelled with something.
  cases kind : token.kind with
  | literal =>
    rcases spelled.literal kind with ⟨-, lexeme⟩ | ⟨-, numeral⟩
    · simp [lexeme]
    · obtain ⟨c, others, lexeme, -⟩ := numeral.head
      simp [lexeme]
  | function => exact (spelled.function kind).1
  | operator | leftParen | rightParen | comma =>
    obtain ⟨c, -, lexeme, -⟩ := spelled.punctuation (kind ▸ rfl)
    simp [lexeme]

end Token

/-- What the characters before a place show of the token that ends there. -/
structure Follows (before : List Char) (previous : Option Token) : Prop where
  empty : before = [] ↔ previous = none
  awaits : before.head?.any Recognizer.awaitsOperand = previous.any (·.kind.awaitsOperand)
  ends : Recognizer.endsOperand before = previous.any (·.kind.endsOperand)
  word : before.head?.any Text.isWord = previous.any (·.kind.isWord)

/-- Nothing comes before the beginning of a text. -/
theorem Follows.beginning : Follows [] none :=
  ⟨by simp, rfl, rfl, rfl⟩

/-- A token shows in its last character and, where that is the variable's letter, in one more. -/
theorem Follows.ofLast {before earlier : List Char} {last : Char} {token : Token}
    (lexeme : token.lexeme = earlier ++ [last])
    (awaits : Recognizer.awaitsOperand last = token.kind.awaitsOperand)
    (ends : Recognizer.endsOperand (last :: (earlier.reverse ++ before)) = token.kind.endsOperand)
    (word : Text.isWord last = token.kind.isWord) :
    Follows (token.lexeme.reverse ++ before) (some token) := by
  -- The characters before the place are those of the token, read backwards.
  have reversed : token.lexeme.reverse ++ before = last :: (earlier.reverse ++ before) := by
    simp [lexeme]
  rw [reversed]
  exact ⟨by simp, by simpa using awaits, by simpa using ends, by simpa using word⟩

/-- A name is not the variable, so no operand ends with it. -/
theorem Recognizer.endsOperand_name {earlier before : List Char} {last : Char}
    (letters : ∀ c ∈ earlier ++ [last], c.isAlpha = true) (unnamed : earlier ++ [last] ≠ ['x']) :
    endsOperand (last :: (earlier.reverse ++ before)) = false := by
  -- Operands end with digits, parentheses and the variable, and a letter is neither.
  have letter : last.isAlpha = true := letters last (by simp)
  have noDigit := Text.isDigit_of_isAlpha letter
  have noParen := (of_isWord (Text.isWord_of_isAlpha letter)).2.1
  have noVariable : endsVariable (last :: (earlier.reverse ++ before)) = false := by
    by_cases named : last = 'x'
    · -- Another letter of the name comes before the variable's letter.
      cases backwards : earlier.reverse with
      | nil =>
        have alone : earlier = [] := by simpa using backwards
        exact absurd (by simp [alone, named]) unnamed
      | cons prior others =>
        have member : prior ∈ earlier := by
          rw [← List.mem_reverse, backwards]
          exact List.mem_cons_self
        have isWord := Text.isWord_of_isAlpha (letters prior (by simp [member]))
        simp [endsVariable, isWord]
    · simp [endsVariable, named]
  simp [endsOperand, noDigit, noParen, noVariable]

/-- The characters of a token show it, where no word runs into a variable. -/
theorem Follows.token {before : List Char} {previous : Option Token}
    (follows : Follows before previous) {token : Token} (spelled : token.Spelled)
    (apart : token.isVariable = true → previous.any (·.kind.isWord) = false) :
    Follows (token.lexeme.reverse ++ before) (some token) := by
  -- Words and punctuation are told apart by their last character.
  cases word : token.kind.isWord with
  | false =>
    obtain ⟨c, mark, lexeme, awaits, closes, -⟩ := spelled.punctuation word
    obtain ⟨noDigit, -, noWord, notX, -⟩ := Recognizer.of_mem_punctuation mark
    have single : token.lexeme = [] ++ [c] := lexeme
    refine .ofLast single awaits ?_ (noWord.trans word.symm)
    -- Of these four kinds, only a closing parenthesis ends an operand.
    have ends : Recognizer.endsOperand (c :: before) = (token.kind == .rightParen) := by
      simp [Recognizer.endsOperand, Recognizer.endsVariable, noDigit, notX, closes]
    exact ends.trans (Kind.of_not_isWord word).2.symm
  | true =>
    obtain ⟨-, noOperand, -⟩ := Kind.of_isWord word
    cases kind : token.kind with
    | operator | leftParen | rightParen | comma => simp [kind, Kind.isWord] at word
    | literal =>
      rcases spelled.literal kind with ⟨isVariable, lexeme⟩ | ⟨-, numeral⟩
      · -- The variable ends an operand because no word leads up to it.
        have quiet := follows.word.trans (apart isVariable)
        have single : token.lexeme = [] ++ ['x'] := lexeme
        refine .ofLast single (noOperand ▸ by decide) ?_ (word ▸ by decide)
        simp [Recognizer.endsOperand, Recognizer.endsVariable, quiet, kind, Kind.endsOperand]
      · -- A numeral ends with a digit, and so an operand ends there.
        obtain ⟨last, earlier, lexeme, isDigit⟩ := numeral.last
        have isWord := Text.isWord_of_isDigit isDigit
        have awaits := (Recognizer.of_isWord isWord).1.trans noOperand.symm
        refine .ofLast lexeme awaits ?_ (isWord.trans word.symm)
        simp [Recognizer.endsOperand, isDigit, kind, Kind.endsOperand]
    | function =>
      -- The last letter of a name is not that of a variable, even when it is the same letter.
      obtain ⟨nonempty, letters, unnamed⟩ := spelled.function kind
      have ended := List.dropLast_concat_getLast nonempty
      rw [← ended] at letters unnamed
      have isWord := Text.isWord_of_isAlpha (letters (token.lexeme.getLast nonempty) (by simp))
      have awaits := (Recognizer.of_isWord isWord).1.trans noOperand.symm
      refine .ofLast ended.symm awaits ?_ (isWord.trans word.symm)
      rw [Recognizer.endsOperand_name letters unnamed, kind]
      rfl

/-- What the characters after a place show of the token that starts there. -/
structure Precedes (after : List Char) (next : Option Token) : Prop where
  starts : Recognizer.startsOperand after = next.any (·.kind.startsOperand)
  paren : (after.head? == some '(') = next.any (·.kind == .leftParen)
  word : after.head?.any Text.isWord = next.any (·.kind.isWord)
  point : after.head? ≠ some '.'

/-- No word comes right after a literal. -/
theorem WellPlaced.noWord {policy : ConflictPolicy} {previous : Token} {tokens : List Token}
    (placed : WellPlaced policy (some previous) tokens) (kind : previous.kind = .literal) :
    tokens.head?.any (·.kind.isWord) = false := by
  -- The rules on the next token are looked up by its kind.
  cases tokens with
  | nil => rfl
  | cons token rest =>
    -- Another literal is ruled out as such, and a function because no operand is awaited.
    have here := placed.1
    cases next : token.kind with
    | literal => simpa [kind] using here.literal next
    | function => simpa [kind, Kind.awaitsOperand] using (here.function next).1
    | operator | leftParen | rightParen | comma => simp [next, Kind.isWord]

/-- A word that starts an operand shows in its first character. -/
theorem Precedes.ofFirst {token : Token} {c : Char} {others rest : List Char}
    (lexeme : token.lexeme = c :: others) (isWord : Text.isWord c = true)
    (word : token.kind.isWord = true)
    (starts : Recognizer.startsOperand (token.lexeme ++ rest) = true) :
    Precedes (token.lexeme ++ rest) (some token) := by
  -- The first character of a word is neither a parenthesis nor a point.
  obtain ⟨-, -, noParen, notPoint⟩ := Recognizer.of_isWord isWord
  obtain ⟨starting, -, kind⟩ := Kind.of_isWord word
  exact ⟨by simp [starts, starting], by simp [lexeme, noParen, kind],
    by simp [lexeme, isWord, word], by simp [lexeme, notPoint]⟩

/-- The characters of tokens that obey the rules show the first of these tokens. -/
theorem WellPlaced.precedes {policy : ConflictPolicy} {previous : Option Token}
    {tokens : List Token} (placed : WellPlaced policy previous tokens) :
    Precedes (spell tokens) tokens.head? := by
  -- The variable and names are recognized by what comes after them, hence the induction.
  induction tokens generalizing previous with
  | nil => exact ⟨rfl, rfl, rfl, by simp [spell]⟩
  | cons token rest ih =>
    obtain ⟨here, later⟩ := placed
    have spelled := here.spelled
    have following := ih later
    have split : spell (token :: rest) = token.lexeme ++ spell rest := rfl
    rw [split, List.head?_cons]
    cases word : token.kind.isWord with
    | false =>
      obtain ⟨c, mark, lexeme, -, -, opens⟩ := spelled.punctuation word
      obtain ⟨noDigit, noLetter, noWord, notX, notPoint⟩ := Recognizer.of_mem_punctuation mark
      -- Of all punctuation, only an opening parenthesis starts an operand.
      have starts : Recognizer.startsOperand (c :: spell rest) = (c == '(') := by
        simp [Recognizer.startsOperand, Recognizer.startsVariable, Recognizer.callLength, noDigit,
          noLetter, notX]
      rw [lexeme]
      refine ⟨?_, by simpa using opens, by simpa [word] using noWord, by simpa using notPoint⟩
      exact starts.trans (opens.trans (Kind.of_not_isWord word).1.symm)
    | true =>
      cases kind : token.kind with
      | operator | leftParen | rightParen | comma => simp [kind, Kind.isWord] at word
      | literal =>
        rcases spelled.literal kind with ⟨-, lexeme⟩ | ⟨-, numeral⟩
        · refine .ofFirst lexeme (by decide) word ?_
          have quiet := following.word.trans (later.noWord kind)
          simp [lexeme, Recognizer.startsOperand, Recognizer.startsVariable, quiet]
        · obtain ⟨c, others, lexeme, isDigit⟩ := numeral.head
          refine .ofFirst lexeme (Text.isWord_of_isDigit isDigit) word ?_
          simp [lexeme, Recognizer.startsOperand, isDigit]
      | function =>
        -- A name starts an operand because its parenthesis comes right after it.
        obtain ⟨nonempty, letters, -⟩ := spelled.function kind
        have parenthesis : (spell rest).head? = some '(' := by
          rw [← beq_iff_eq, following.paren]
          exact (here.function kind).2
        obtain ⟨others, remaining⟩ := List.head?_eq_some_iff.mp parenthesis
        have called := Recognizer.callLength_append letters others
        obtain ⟨c, more, lexeme⟩ := List.exists_cons_of_ne_nil nonempty
        refine .ofFirst lexeme (Text.isWord_of_isAlpha (letters c (by simp [lexeme]))) word ?_
        rw [← remaining] at called
        simp [Recognizer.startsOperand, called, nonempty]

/-- No digit goes on with a literal, and a function is followed by an opening parenthesis. -/
structure Parted (previous : Option Token) (after : List Char) : Prop where
  literal : previous.any (·.kind == .literal) = true → after.head?.any Text.isDigit = false
  function : previous.any (·.kind == .function) = true → after.head? = some '('

namespace Recognizer

/-- A single character that starts a token of punctuation is written as that token is. -/
theorem spelled_of_opens {form : Recognizer} {c : Char} (opened : form.opens c = true)
    (notLiteral : form ≠ literal) (notFunction : form ≠ function) :
    (form.token [c]).Spelled ∧ (form.token [c]).lexeme = [c] := by
  -- The forms are gone through with the characters that open each of them.
  cases form with
  | literal => exact absurd rfl notLiteral
  | function => exact absurd rfl notFunction
  | binaryOperator =>
    have sign : c ∈ ['-', '+', '*', '/', '^'] := by simpa [opens, isSign] using opened
    simp only [List.mem_cons, List.not_mem_nil, or_false] at sign
    rcases sign with rfl | rfl | rfl | rfl | rfl <;>
      exact ⟨by simp [Token.Spelled, token, kind], by decide⟩
  | unaryMinus | leftParen | rightParen | comma =>
    simp only [opens, beq_iff_eq] at opened
    subst opened
    exact ⟨by simp [Token.Spelled, token, kind], by decide⟩

/-- What a form matches is written as its tokens are, unless it is the variable as a name. -/
theorem spelled_of_match {form : Recognizer} {before lexeme after : List Char}
    (nonempty : lexeme ≠ [])
    (matched : form.matchLength before (lexeme ++ after) = lexeme.length)
    (unnamed : form = function → lexeme ≠ ['x']) :
    (form.token lexeme).Spelled ∧ (form.token lexeme).lexeme = lexeme ∧
      Parted (some (form.token lexeme)) after := by
  -- Literals and names are taken as they are matched, and other tokens by their character.
  have found := found_of_matched matched nonempty
  by_cases isLiteral : form = literal
  · subst isLiteral
    have shape := literal_cases found
    rw [matched, List.take_left, List.drop_left] at shape
    have written : (literal.token lexeme).text.toList = lexeme := by simp [token]
    rcases shape with ⟨numeral, noDigit⟩ | ⟨length, first, noWord, -⟩
    · -- A numeral takes all digits that there are.
      refine ⟨.inr (written.symm ▸ numeral), written, ?_, ?_⟩
      · exact fun _ => noDigit
      · simp [token, kind]
    · -- No word goes on with the variable, and hence no digit.
      obtain ⟨c, rfl⟩ := List.length_eq_one_iff.mp length
      simp only [List.singleton_append, List.head?_cons, Option.some.injEq] at first
      subst first
      have noDigit : after.head?.any Text.isDigit = false := by
        cases after with
        | nil => rfl
        | cons d rest =>
          simp only [List.singleton_append, List.tail_cons, List.head?_cons, Option.any_some,
            Bool.eq_false_iff] at noWord ⊢
          exact fun isDigit => noWord (Text.isWord_of_isDigit isDigit)
      exact ⟨.inl rfl, written, fun _ => noDigit, by simp [token, kind]⟩
  · by_cases isFunction : form = function
    · -- The name is all that is matched, and the parenthesis comes next.
      subst isFunction
      obtain ⟨-, name, rest, split, letters, length⟩ := function_cases found
      obtain ⟨rfl, rfl⟩ := List.append_inj split (matched.symm.trans length)
      have written : (function.token lexeme).text.toList = lexeme := by simp [token]
      refine ⟨⟨?_, written.symm ▸ letters, ?_⟩, written, by simp [token, kind], by simp⟩
      · intro blank
        simp [blank] at written
        exact nonempty written
      · intro named
        rw [named] at written
        exact unnamed rfl written.symm
    · -- Tokens of the other forms are single characters.
      have short := matchLength_le_one isLiteral isFunction before (lexeme ++ after)
      have single : lexeme.length = 1 := by
        have positive := List.length_pos_iff.mpr nonempty
        omega
      obtain ⟨c, rfl⟩ := List.length_eq_one_iff.mp single
      obtain ⟨spelled, written⟩ :=
        spelled_of_opens (opens_of_matchLength found) isLiteral isFunction
      refine ⟨spelled, written, ?_, ?_⟩
      · cases form <;> simp [token, kind] at isLiteral ⊢
      · cases form <;> simp [token, kind] at isFunction ⊢

/-- An operand is in place exactly where nothing ended that awaits none. -/
theorem operandPlace_eq {before : List Char} {previous : Option Token}
    (follows : Follows before previous) :
    operandPlace before = previous.all (·.kind.awaitsOperand) := by
  -- A place for an operand is the beginning, or comes after what awaits one.
  have beginning : before.isEmpty = previous.isNone := by
    rw [Bool.eq_iff_iff, List.isEmpty_iff, Option.isNone_iff_eq_none]
    exact follows.empty
  rw [operandPlace, beginning, follows.awaits]
  cases previous <;> rfl

end Recognizer

section

variable {policy : ConflictPolicy} {before lexeme after : List Char} {previous next : Option Token}

/-- A name alone at its place is not the variable, which would be matched there too. -/
theorem Recognizer.unnamed_of_match (follows : Follows before previous)
    (matched : function.matchLength before (lexeme ++ after) = lexeme.length)
    (first : literal.matchLength before (lexeme ++ after) = 0) : lexeme ≠ ['x'] := by
  -- The variable would stand alone here, and be matched by its own form.
  rintro rfl
  have found := found_of_matched matched (List.cons_ne_nil 'x' [])
  obtain ⟨place, name, rest, split, letters, length⟩ := function_cases found
  obtain ⟨-, rfl⟩ := List.append_inj split (matched.symm.trans length)
  -- No word ends where an operand is awaited, so the variable would be matched here.
  have quiet : before.head?.any Text.isWord = false := by
    rw [operandPlace_eq follows] at place
    rw [follows.word]
    cases previous with
    | none => rfl
    | some token =>
      simp only [Option.all_some, Option.any_some] at place ⊢
      cases word : token.kind.isWord with
      | false => rfl
      | true => simp [(Kind.of_isWord word).2.1] at place
  have paren : ('(' :: rest).head?.any Text.isWord = false := by
    simp only [List.head?_cons, Option.any_some]
    decide
  have matchedToo := matchLength_variable quiet paren
  simp [matchedToo] at first

/-- No word comes right before a literal. -/
theorem Recognizer.quiet_of_match (follows : Follows before previous)
    (parted : Parted previous (lexeme ++ after)) (nonempty : lexeme ≠ [])
    (matched : literal.matchLength before (lexeme ++ after) = lexeme.length) :
    previous.any (·.kind.isWord) = false := by
  -- What comes before the literal depends on which of the two forms it has.
  have found := found_of_matched matched nonempty
  have shape := literal_cases found
  rw [matched, List.take_left] at shape
  rcases shape with ⟨numeral, -⟩ | ⟨-, -, -, noWord⟩
  · -- A literal before a numeral would have gone on with its digits.
    obtain ⟨c, others, rfl, isDigit⟩ := numeral.head
    have noParen := (of_isWord (Text.isWord_of_isDigit isDigit)).2.2.1
    obtain ⟨noLiteral, noFunction⟩ := parted
    simp only [List.cons_append, List.head?_cons, Option.any_some, isDigit, Option.some.injEq,
      noParen, imp_false, Bool.true_eq_false, Bool.not_eq_true] at noLiteral noFunction
    cases previous with
    | none => rfl
    | some token =>
      simp only [Option.any_some, beq_eq_false_iff_ne] at noLiteral noFunction ⊢
      cases kind : token.kind with
      | literal => exact absurd kind noLiteral
      | function => exact absurd kind noFunction
      | operator | leftParen | rightParen | comma => rfl
  · rwa [follows.word] at noWord

/-- Where a variable before a parenthesis is no name, a parenthesis was closed before it. -/
theorem Recognizer.closed_of_match (follows : Follows before previous)
    (quiet : previous.any (·.kind.isWord) = false)
    (sole : function.matchLength before ('x' :: '(' :: after) = 0) :
    previous.any (·.kind == .rightParen) = true := by
  -- After anything else that is no word, the variable's letter would be a call.
  have noPlace : operandPlace before ≠ true := by
    intro place
    have letters : ∀ c ∈ ['x'], c.isAlpha = true := List.all_eq_true.mp rfl
    have call := matchLength_name place letters after
    simp [sole] at call
  rw [operandPlace_eq follows] at noPlace
  cases previous with
  | none => exact absurd rfl noPlace
  | some token =>
    simp only [Option.any_some, Option.all_some] at quiet noPlace ⊢
    cases kind : token.kind with
    | rightParen => rfl
    | literal | function => simp [kind, Kind.isWord] at quiet
    | operator | leftParen | comma => simp [kind, Kind.awaitsOperand] at noPlace

/-- A token that is matched, and prevails over any other, obeys the rules between its neighbours. -/
theorem Placed.of_match {form : Recognizer} (follows : Follows before previous)
    (parted : Parted previous (lexeme ++ after)) (precedes : Precedes after next)
    (nonempty : lexeme ≠ [])
    (matched : form.matchLength before (lexeme ++ after) = lexeme.length)
    (first : form ≠ .literal → Recognizer.literal.matchLength before (lexeme ++ after) = 0)
    (sole : policy = .strict → form = .literal →
      Recognizer.function.matchLength before (lexeme ++ after) = 0) :
    Placed policy previous (form.token lexeme) next := by
  -- Each form checks the neighbours of its own tokens, as the rules on these tokens say.
  have found := Recognizer.found_of_matched matched nonempty
  have unnamed : form = .function → lexeme ≠ ['x'] := by
    rintro rfl
    exact Recognizer.unnamed_of_match follows matched (first (by decide))
  obtain ⟨spelled, written, -⟩ := Recognizer.spelled_of_match nonempty matched unnamed
  cases form with
  | literal =>
    -- No word comes before a literal, and another literal would be a word.
    have quiet := Recognizer.quiet_of_match follows parted nonempty matched
    have apart : previous.all (·.kind != .literal) = true := by
      rw [Option.all_eq_true]
      rintro token rfl
      rw [bne_iff_ne]
      intro kind
      simp [kind, Kind.isWord] at quiet
    refine ⟨spelled, nofun, nofun, nofun, fun _ => apart, ?_⟩
    -- A variable before a parenthesis is no call, since nothing else claims its letter.
    intro strict isVariable paren
    simp only [Token.isVariable, Bool.and_eq_true, beq_iff_eq] at isVariable
    have letter : lexeme = ['x'] := by
      rw [← written, Token.lexeme_of_isWord rfl, isVariable.2]
      rfl
    rw [← precedes.paren, beq_iff_eq] at paren
    obtain ⟨rest, rfl⟩ := List.head?_eq_some_iff.mp paren
    subst letter
    exact Recognizer.closed_of_match follows quiet (sole strict rfl)
  | binaryOperator =>
    have ended := follows.ends.symm.trans (Recognizer.binaryOperator_cases found)
    refine ⟨spelled, fun _ _ => ended, ?_, nofun, nofun, nofun⟩
    -- A binary operator goes by its own character, and never by the name of the unary minus.
    intro isUnary
    rw [Token.lexeme, isUnary, if_pos rfl] at written
    subst written
    exact absurd isUnary (by decide)
  | unaryMinus =>
    have sign : lexeme = ['-'] := written.symm
    subst sign
    refine ⟨spelled, nofun, fun _ => ?_, nofun, nofun, nofun⟩
    -- What the characters show of the neighbours is what these are.
    rcases Recognizer.unaryMinus_cases found with beginning | ⟨awaits, starts⟩
    · exact .inl (follows.empty.mp beginning)
    · exact .inr ⟨follows.awaits ▸ awaits, precedes.starts ▸ starts⟩
  | function =>
    obtain ⟨place, name, rest, split, letters, length⟩ := Recognizer.function_cases found
    obtain ⟨-, rfl⟩ := List.append_inj split (matched.symm.trans length)
    rw [Recognizer.operandPlace_eq follows] at place
    -- The parenthesis that the form looks for belongs to the next token.
    have paren : next.any (·.kind == .leftParen) = true := by
      rw [← precedes.paren]
      simp
    exact ⟨spelled, nofun, nofun, fun _ => ⟨place, paren⟩, nofun, nofun⟩
  | leftParen | rightParen | comma => exact ⟨spelled, nofun, nofun, nofun, nofun, nofun⟩

/-- A token that obeys the rules parts what is before it from what is after it. -/
theorem Placed.parted {token : Token} (placed : Placed policy previous token next)
    (precedes : Precedes after next)
    (noWord : token.kind = .literal → next.any (·.kind.isWord) = false) :
    Parted (some token) after := by
  -- A literal is followed by no word, and a function by its parenthesis.
  constructor
  · intro kind
    have quiet : after.head?.any Text.isWord = false := by
      rw [precedes.word]
      exact noWord (by simpa using kind)
    cases after with
    | nil => rfl
    | cons c rest =>
      simp only [List.head?_cons, Option.any_some, Bool.eq_false_iff] at quiet ⊢
      exact fun isDigit => quiet (Text.isWord_of_isDigit isDigit)
  · intro kind
    rw [← beq_iff_eq, precedes.paren]
    exact (placed.function (by simpa using kind)).2

/-- No word comes right before a literal that obeys the rules. -/
theorem Placed.quiet {token : Token} (placed : Placed policy previous token next)
    (kind : token.kind = .literal) (parted : Parted previous (token.lexeme ++ after)) :
    previous.any (·.kind.isWord) = false := by
  -- Another literal is ruled out by the rules, and a function by its parenthesis.
  cases previous with
  | none => rfl
  | some prior =>
    have apart := placed.literal kind
    have noFunction : prior.kind ≠ .function := by
      intro function
      -- A parenthesis would come right after a function.
      have paren := parted.function (by simp [function])
      rcases placed.spelled.literal kind with ⟨-, lexeme⟩ | ⟨-, numeral⟩
      · simp [lexeme] at paren
      · obtain ⟨c, others, lexeme, isDigit⟩ := numeral.head
        simp only [lexeme, List.cons_append, List.head?_cons, Option.some.injEq] at paren
        subst paren
        exact absurd isDigit (by decide)
    simp only [Option.all_some, bne_iff_ne, Option.any_some] at apart ⊢
    cases ended : prior.kind with
    | literal => exact absurd ended apart
    | function => exact absurd ended noFunction
    | operator | leftParen | rightParen | comma => rfl

/-- A token that obeys the rules is matched whole by its form. -/
theorem Placed.matchLength {token : Token} (placed : Placed policy previous token next)
    (follows : Follows before previous) (parted : Parted previous (token.lexeme ++ after))
    (precedes : Precedes after next)
    (noWord : token.kind = .literal → next.any (·.kind.isWord) = false) :
    token.form.matchLength before (token.lexeme ++ after) = token.lexeme.length := by
  -- What each rule says of the neighbours is what the form of the token asks for.
  have spelled := placed.spelled
  have later := placed.parted precedes noWord
  cases kind : token.kind with
  | literal =>
    have form : token.form = .literal := by simp [Token.form, kind]
    rw [form]
    rcases spelled.literal kind with ⟨-, lexeme⟩ | ⟨-, numeral⟩
    · rw [lexeme]
      exact Recognizer.matchLength_variable (follows.word.trans (placed.quiet kind parted))
        (precedes.word.trans (noWord kind))
    · exact Recognizer.matchLength_numeral numeral (later.literal (by simp [kind])) precedes.point _
  | operator =>
    cases isUnary : token.isUnaryMinus with
    | true =>
      have sign : Recognizer.isUnaryMinus before ('-' :: after) = true := by
        rcases placed.unary isUnary with beginning | ⟨awaits, starts⟩
        · simp [Recognizer.isUnaryMinus, follows.empty.mpr beginning]
        · simp [Recognizer.isUnaryMinus, follows.awaits, precedes.starts, awaits, starts]
      simp [Token.form, kind, isUnary, Token.lexeme, Recognizer.matchLength, sign,
        Recognizer.single]
    | false =>
      obtain ⟨c, lexeme, sign⟩ := spelled.sign kind
      have ended := follows.ends.trans (placed.binary kind isUnary)
      simp [Token.form, kind, isUnary, lexeme, Recognizer.matchLength, sign, ended,
        Recognizer.single]
  | leftParen | rightParen | comma =>
    simp only [Token.Spelled, kind] at spelled
    simp [Token.form, kind, Token.lexeme, Token.isUnaryMinus, spelled, Recognizer.matchLength,
      Recognizer.single]
  | function =>
    have form : token.form = .function := by simp [Token.form, kind]
    -- A parenthesis comes next, up to which the letters are taken.
    obtain ⟨rest, rfl⟩ := List.head?_eq_some_iff.mp (later.function (by simp [kind]))
    have place := (Recognizer.operandPlace_eq follows).trans (placed.function kind).1
    rw [form]
    exact Recognizer.matchLength_name place (spelled.function kind).2.1 rest

/-- A call of the variable's letter is a rival of the variable only under priority. -/
theorem Placed.priority_of_call {token : Token} (placed : Placed policy previous token next)
    (follows : Follows before previous) (precedes : Precedes after next)
    (noWord : next.any (·.kind.isWord) = false) (isVariable : token.isVariable = true)
    (found : Recognizer.function.matchLength before ('x' :: after) ≠ 0) : policy = .priority := by
  -- A call at this place would be one of a single letter, which the strict rules exclude.
  obtain ⟨place, name, rest, split, letters, -⟩ := Recognizer.function_cases found
  rw [Recognizer.operandPlace_eq follows] at place
  have quiet := precedes.word.trans noWord
  -- A longer name would make a word of the variable.
  have paren : after.head? = some '(' := by
    match name with
    | [] => simp at split
    | [c] => simpa using congrArg (fun text => text.tail.head?) split
    | c :: d :: others =>
      simp only [List.cons_append, List.cons.injEq] at split
      simp [split.2, Text.isWord_of_isAlpha (letters d (by simp))] at quiet
  cases policy with
  | priority => rfl
  | strict =>
    -- After a closed parenthesis no operand starts.
    have closed := placed.call rfl isVariable (by rw [← precedes.paren, paren]; rfl)
    cases previous with
    | none => cases closed
    | some prior =>
      simp only [Option.any_some, beq_iff_eq, Option.all_some] at closed place
      simp [closed, Kind.awaitsOperand] at place

/-- No minus sign is both unary and binary. -/
theorem Recognizer.not_unary_and_binary (follows : Follows before previous)
    (ends : endsOperand before = true) :
    ¬(previous = none ∨ previous.any (·.kind.awaitsOperand) = true) := by
  -- An operand has ended, so that none is awaited.
  rw [follows.ends] at ends
  cases previous with
  | none => cases ends
  | some token =>
    simp only [Option.any_some] at ends
    simp [Kind.awaitsOperand_of_endsOperand ends]

/-- A token that obeys the rules has no rivals but a name that is the variable, under priority. -/
theorem Placed.rival {token : Token} (placed : Placed policy previous token next)
    (follows : Follows before previous) (parted : Parted previous (token.lexeme ++ after))
    (precedes : Precedes after next)
    (noWord : token.kind = .literal → next.any (·.kind.isWord) = false)
    {other : Recognizer} (distinct : other ≠ token.form)
    (found : other.matchLength before (token.lexeme ++ after) ≠ 0) :
    policy = .priority ∧ token.form = .literal := by
  -- A rival would be opened by the same character as the token.
  have spelled := placed.spelled
  have matched := placed.matchLength follows parted precedes noWord
  have foundToo := Recognizer.found_of_matched matched spelled.lexeme_ne_nil
  obtain ⟨c, others, lexeme⟩ := List.exists_cons_of_ne_nil spelled.lexeme_ne_nil
  have kind := token.form_kind
  rw [lexeme] at found foundToo
  -- Two forms match at one place only where a name may be the variable, or at a minus sign.
  rcases Recognizer.eq_of_opens (Recognizer.opens_of_matchLength foundToo)
    (Recognizer.opens_of_matchLength found) with same | ⟨rfl, both⟩ | ⟨rfl, both⟩
  · exact absurd same.symm distinct
  · rcases both with ⟨form, rfl⟩ | ⟨form, rfl⟩
    · rw [form] at kind
      rcases spelled.literal kind.symm with ⟨isVariable, alone⟩ | ⟨-, numeral⟩
      · rw [← lexeme, alone] at found
        exact ⟨placed.priority_of_call follows precedes (noWord kind.symm) isVariable found, form⟩
      · rw [lexeme] at numeral
        exact absurd numeral.isDigit_head (by decide)
    · -- Another letter of the name comes after the variable's letter.
      rw [form] at kind
      obtain ⟨-, letters, unnamed⟩ := spelled.function kind.symm
      rw [lexeme] at letters unnamed
      have goesOn : others ≠ [] := by
        rintro rfl
        exact unnamed rfl
      obtain ⟨d, more, rfl⟩ := List.exists_cons_of_ne_nil goesOn
      have isWord := Text.isWord_of_isAlpha (letters d (by simp))
      have noDigit : Text.isDigit 'x' = false := by decide
      simp [Recognizer.matchLength, Recognizer.numeralLength, Recognizer.startsVariable, noDigit,
        isWord, Recognizer.single] at found
  · rcases both with ⟨form, rfl⟩ | ⟨form, rfl⟩
    · -- A minus sign after an operand is binary, and cannot be unary as well.
      rw [form] at foundToo
      have ends := Recognizer.binaryOperator_cases foundToo
      have unary := Recognizer.unaryMinus_cases found
      rw [follows.empty, follows.awaits] at unary
      exact absurd (unary.imp_right And.left) (Recognizer.not_unary_and_binary follows ends)
    · have ends := Recognizer.binaryOperator_cases found
      have unary := placed.unary (Token.isUnaryMinus_of_form form)
      exact absurd (unary.imp_right And.left) (Recognizer.not_unary_and_binary follows ends)

/-- The form of a token that obeys the rules makes the token out of its characters. -/
theorem Token.Spelled.form_token {token : Token} (spelled : token.Spelled) :
    token.form.token token.lexeme = token := by
  -- Only the unary minus is written with other characters than its text has.
  obtain ⟨text, kind⟩ := token
  cases kind with
  | operator =>
    cases unary : (Token.mk text .operator).isUnaryMinus with
    | true =>
      have named : text = Operation.unaryMinus := by simpa [Token.isUnaryMinus] using unary
      subst named
      rfl
    | false =>
      simp [Token.form, Token.lexeme, unary, Recognizer.token, Recognizer.kind]
  | literal | leftParen | rightParen | function | comma =>
    simp [Token.form, Token.lexeme, Token.isUnaryMinus, Recognizer.token, Recognizer.kind]

/-- A token that obeys the rules is claimed first, and alone under the strict policy. -/
theorem Placed.claimsAt {token : Token} (placed : Placed policy previous token next)
    (follows : Follows before previous) (parted : Parted previous (token.lexeme ++ after))
    (precedes : Precedes after next)
    (noWord : token.kind = .literal → next.any (·.kind.isWord) = false) :
    ∃ rivals, Recognizer.claimsAt before (token.lexeme ++ after) =
      ⟨token.form, token.lexeme⟩ :: rivals ∧ (policy = .strict → rivals = []) := by
  -- The token's own claim is among those at its place, and any other would be a rival.
  have matched := placed.matchLength follows parted precedes noWord
  have found := Recognizer.found_of_matched matched placed.spelled.lexeme_ne_nil
  have own : Claim.mk token.form token.lexeme ∈
      Recognizer.claimsAt before (token.lexeme ++ after) := by
    refine Recognizer.mem_claimsAt.mpr ⟨found, ?_⟩
    rw [matched, List.take_left]
  cases claimed : Recognizer.claimsAt before (token.lexeme ++ after) with
  | nil => simp [claimed] at own
  | cons claim rivals =>
    have member : claim ∈ Recognizer.claimsAt before (token.lexeme ++ after) := by simp [claimed]
    obtain ⟨claimFound, claimLexeme⟩ := Recognizer.mem_claimsAt.mp member
    have form : claim.form = token.form := by
      by_cases same : claim.form = token.form
      · exact same
      · -- Only a literal may have a rival, and it comes before all of them.
        have isLiteral := (placed.rival follows parted precedes noWord same claimFound).2
        exact (Recognizer.claimsAt_literal claimed (isLiteral ▸ found)).trans isLiteral.symm
    have lexeme : claim.lexeme = token.lexeme := by
      rw [claimLexeme, form, matched, List.take_left]
    -- Under the strict policy no form but the token's own can have a claim here.
    refine ⟨rivals, by rw [← form, ← lexeme], fun strict => ?_⟩
    rw [List.eq_nil_iff_forall_not_mem]
    intro rival isRival
    have rivalFound := (Recognizer.mem_claimsAt.mp (claimed ▸ List.mem_cons_of_mem _ isRival)).1
    have nodup := Recognizer.nodup_claimsAt before (token.lexeme ++ after)
    rw [claimed, List.map_cons, List.nodup_cons, form] at nodup
    have distinct : rival.form ≠ token.form := fun same =>
      nodup.1 (List.mem_map.mpr ⟨rival, isRival, same⟩)
    have lenient := (placed.rival follows parted precedes noWord distinct rivalFound).1
    rw [strict] at lenient
    cases lenient

end

/-- Tokens that obey the rules are read off their characters, and nothing else is. -/
theorem pieces_spell {policy : ConflictPolicy} {tokens : List Token} :
    ∀ {before : List Char} {previous : Option Token}, Follows before previous →
      Parted previous (spell tokens) → WellPlaced policy previous tokens →
        (∀ piece ∈ pieces before (spell tokens), piece.Accepted policy) ∧
          (pieces before (spell tokens)).filterMap Piece.token? = tokens := by
  -- Each token hands on to the next one what comes before it.
  induction tokens with
  | nil =>
    intro before previous _ _ _
    simp [spell, pieces]
  | cons token rest ih =>
    intro before previous follows parted placed
    obtain ⟨here, later⟩ := placed
    have precedes := later.precedes
    have noWord : token.kind = .literal → rest.head?.any (·.kind.isWord) = false := later.noWord
    have split : spell (token :: rest) = token.lexeme ++ spell rest := rfl
    rw [split] at parted ⊢
    obtain ⟨rivals, claimed, sole⟩ := here.claimsAt follows parted precedes noWord
    have apart : token.isVariable = true → previous.any (·.kind.isWord) = false := by
      intro isVariable
      simp only [Token.isVariable, Bool.and_eq_true, beq_iff_eq] at isVariable
      exact here.quiet isVariable.1 parted
    have following := ih (follows.token here.spelled apart) (here.parted precedes noWord) later
    obtain ⟨c, inner, lexeme⟩ := List.exists_cons_of_ne_nil here.spelled.lexeme_ne_nil
    have made := here.spelled.form_token
    -- The scan takes the whole token in one step.
    have read : pieces before (token.lexeme ++ spell rest) =
        .token token.form c inner rivals ::
          pieces (token.lexeme.reverse ++ before) (spell rest) := by
      rw [lexeme] at claimed ⊢
      rw [List.cons_append] at claimed ⊢
      rw [pieces, claimed]
      simp
    rw [lexeme] at made
    rw [read, List.filterMap_cons]
    simp only [Piece.token?, made, following.2, List.forall_mem_cons, and_true]
    exact ⟨⟨rfl, sole⟩, following.1⟩

/-- The tokens of a text whose pieces are all accepted obey the rules, and have its characters. -/
theorem wellPlaced_pieces {policy : ConflictPolicy} {before text : List Char}
    (accepted : ∀ piece ∈ pieces before text, piece.Accepted policy) :
    ∀ {previous : Option Token}, Follows before previous → Parted previous text →
      spell ((pieces before text).filterMap Piece.token?) = text ∧
        WellPlaced policy previous ((pieces before text).filterMap Piece.token?) := by
  -- The induction follows the scan, in which each token is what the next one comes after.
  fun_induction pieces before text with
  | case1 before =>
    intro previous _ _
    exact ⟨rfl, trivial⟩
  | case2 before c rest unclaimed ih =>
    -- A loose character is never accepted.
    have refused := (accepted (.loose c) (by simp)).1
    cases refused
  | case3 before c rest claim rivals claimed ih =>
    intro previous follows parted
    obtain ⟨form, characters⟩ := claim
    obtain ⟨length, lexeme, split⟩ := Recognizer.lexeme_of_claimsAt claimed
    generalize characters.tail = inner at *
    generalize rest.drop inner.length = after at *
    subst lexeme split
    obtain ⟨here, later⟩ := List.forall_mem_cons.mp accepted
    have matched : form.matchLength before ((c :: inner) ++ after) = (c :: inner).length := length
    have first : form ≠ .literal →
        Recognizer.literal.matchLength before ((c :: inner) ++ after) = 0 := fun notLiteral =>
      Recognizer.matchLength_of_claimsAt claimed notLiteral.symm (.inl rfl)
    have sole : policy = .strict → form = .literal →
        Recognizer.function.matchLength before ((c :: inner) ++ after) = 0 := by
      rintro strict rfl
      exact Recognizer.matchLength_of_claimsAt claimed (by simp) (.inr (here.2 strict))
    have unnamed : form = .function → c :: inner ≠ ['x'] := by
      rintro rfl
      exact Recognizer.unnamed_of_match follows matched (first (by decide))
    obtain ⟨spelled, written, partedLater⟩ :=
      Recognizer.spelled_of_match (List.cons_ne_nil c inner) matched unnamed
    have apart : (form.token (c :: inner)).isVariable = true →
        previous.any (·.kind.isWord) = false := by
      intro isVariable
      cases form with
      | literal =>
        exact Recognizer.quiet_of_match follows parted (List.cons_ne_nil c inner) matched
      | binaryOperator | unaryMinus | leftParen | rightParen | function | comma => cases isVariable
    -- The token shows to those after it, and these in turn show to the token.
    have shown := follows.token spelled apart
    rw [written, List.reverse_cons, List.append_assoc, List.singleton_append] at shown
    obtain ⟨spelledLater, placedLater⟩ := ih later shown partedLater
    have precedes := placedLater.precedes
    rw [spelledLater] at precedes
    have placed := Placed.of_match follows parted precedes (List.cons_ne_nil c inner) matched
      first sole
    refine ⟨?_, placed, placedLater⟩
    show (form.token (c :: inner)).lexeme ++
      spell ((pieces (inner.reverse ++ c :: before) after).filterMap Piece.token?) = _
    rw [written, spelledLater]
    rfl

/-- A text has exactly the tokens that obey the rules and have its characters. -/
theorem tokenizeChars_eq_ok_iff_wellPlaced (policy : ConflictPolicy) (text : List Char)
    (tokens : List Token) :
    tokenizeChars policy true text = .ok tokens ↔
      tokens ≠ [] ∧ spell tokens = text ∧ WellPlaced policy none tokens := by
  -- The pieces of a text are its tokens in one direction, and spell it in the other.
  have beginning : Parted none text := ⟨nofun, nofun⟩
  rw [tokenizeChars_eq_ok_iff]
  constructor
  · rintro ⟨nonempty, accepted, rfl⟩
    obtain ⟨spelled, placed⟩ := wellPlaced_pieces accepted .beginning beginning
    refine ⟨?_, spelled, placed⟩
    intro none
    rw [none] at spelled
    exact nonempty spelled.symm
  · rintro ⟨nonempty, rfl, placed⟩
    obtain ⟨accepted, read⟩ := pieces_spell .beginning beginning placed
    refine ⟨?_, accepted, read⟩
    cases tokens with
    | nil => exact absurd rfl nonempty
    | cons token rest =>
      have written := placed.1.spelled.lexeme_ne_nil
      simp [spell, written]

/-- The policy with the name of a policy is that policy. -/
theorem ConflictPolicy.ofName?_name (policy : ConflictPolicy) :
    ofName? policy.name = some policy := by
  -- Both policies are looked up by name.
  cases policy <;> rfl

/-- A named policy is followed whatever the settings say. -/
theorem Settings.policyFor_name (settings : Settings) (policy : ConflictPolicy)
    (rejecting respecting : Option Bool) :
    settings.policyFor ⟨some policy.name, rejecting, respecting⟩ = .ok policy := by
  -- No name of a policy is empty, so that the given name stands.
  have named : nameOr (some policy.name) settings.conflictPolicy = .text policy.name := by
    cases policy <;> rfl
  simp [policyFor, named, Setting.named?, ConflictPolicy.ofName?_name]

namespace Expression

/--
The language of the lexer under either policy, where unknown characters are refused.

A text has a row of tokens exactly when that row is not empty, is written with the characters of
the text that are not blank, and obeys the rules on each token between its neighbours.
-/
theorem tokenize_eq_ok_iff (settings : Settings) (policy : ConflictPolicy) (text : String)
    (tokens : List Token) :
    tokenize settings { conflictPolicy := some policy.name, rejectUnknown := some true } text =
        .ok tokens ↔
      tokens ≠ [] ∧ spell tokens = Text.withoutBlanks text.toList ∧
        WellPlaced policy none tokens := by
  -- With a policy and a refusal given, the settings do not matter.
  rw [← tokenizeChars_eq_ok_iff_wellPlaced]
  simp only [tokenize, Settings.policyFor_name, Settings.rejectsUnknown, Option.getD_some,
    Formula.tokenize]
  cases tokenizeChars policy true (Text.withoutBlanks text.toList) <;> simp

/-- Tokens that obey the rules of the chosen policy are read from their characters. -/
theorem tokenize_of_wellPlaced {settings : Settings} {options : ReadingOptions}
    {policy : ConflictPolicy} (chosen : settings.policyFor options = .ok policy) {text : String}
    {tokens : List Token} (nonempty : tokens ≠ [])
    (spelled : spell tokens = Text.withoutBlanks text.toList)
    (placed : WellPlaced policy none tokens) : tokenize settings options text = .ok tokens := by
  -- What is read under refusal is read in any case.
  have read := (tokenizeChars_eq_ok_iff_wellPlaced policy _ tokens).mpr ⟨nonempty, spelled, placed⟩
  simp [tokenize, chosen, Formula.tokenize, tokenizeChars_of_rejecting read]

end Expression

end Formula
