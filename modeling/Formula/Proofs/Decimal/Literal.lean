import Formula.Postfix.Evaluation
import Formula.Proofs.Decimal.Plain
import Formula.Proofs.Decimal.Ties
import Formula.Proofs.Lexer.Scan
import Mathlib.Data.List.DropRight

/-! Numerals among the tokens of a text: which of them are read, and as which doubles. -/

namespace Formula

/-- What a digit counts, in whatever script it is written. -/
def digitWorth (c : Char) : Nat :=
  (Text.digitValue? c).getD 0

/-- What the digits before the first point of a numeral count. -/
def wholeDigits (text : List Char) : List Nat :=
  (text.takeWhile (· != '.')).map digitWorth

/-- What the digits after the first point of a numeral count. -/
def fractionDigits (text : List Char) : List Nat :=
  ((text.dropWhile (· != '.')).drop 1).map digitWorth

/-- The digits of a numeral on both sides of its point, without zeros at either end. -/
def significantDigits (text : List Char) : List Nat × List Nat :=
  ((wholeDigits text).dropWhile (· == 0), (fractionDigits text).rdropWhile (· == 0))

/-- Before the point, a digit counts ten times as much as it would one place further. -/
def wholeWorth : List Nat → ℚ
  | [] => 0
  | digit :: rest => digit * 10 ^ rest.length + wholeWorth rest

/-- After the point, a digit counts a tenth of what it would one place before. -/
def fractionWorth : List Nat → ℚ
  | [] => 0
  | digit :: rest => (digit + fractionWorth rest) / 10

/-- The number that a numeral denotes. -/
def denoted (text : List Char) : ℚ :=
  wholeWorth (wholeDigits text) + fractionWorth (fractionDigits text)

section Digits

/-- Digits before others count as many places more. -/
theorem wholeWorth_append (digits others : List Nat) :
    wholeWorth (digits ++ others) = wholeWorth digits * 10 ^ others.length + wholeWorth others := by
  -- Each digit in front is followed by as many places more.
  induction digits with
  | nil => simp [wholeWorth]
  | cons digit rest ih =>
    rw [List.cons_append, wholeWorth, wholeWorth, ih, List.length_append, pow_add]
    ring

/-- The whole number that digits write is what they count before the point. -/
theorem ofDigits_eq_wholeWorth (digits : List Nat) :
    (Numeral.ofDigits digits : ℚ) = wholeWorth digits := by
  -- The digits are taken from the end, as each one is added to what comes before it.
  induction digits using List.reverseRecOn with
  | nil => simp [Numeral.ofDigits, wholeWorth]
  | append_singleton digits last ih =>
    rw [Numeral.ofDigits, List.foldl_append, ← Numeral.ofDigits, wholeWorth_append, ← ih]
    simp [wholeWorth]
    ring

/-- Digits after the point count as before it, but for the point. -/
theorem fractionWorth_eq (digits : List Nat) :
    fractionWorth digits = wholeWorth digits / 10 ^ digits.length := by
  -- Each place after the point divides by ten what it multiplies before the point.
  induction digits with
  | nil => simp [fractionWorth, wholeWorth]
  | cons digit rest ih =>
    rw [fractionWorth, wholeWorth, ih, List.length_cons, pow_succ]
    field_simp

/-- Leading zeros count nothing. -/
theorem wholeWorth_dropWhile (digits : List Nat) :
    wholeWorth (digits.dropWhile (· == 0)) = wholeWorth digits := by
  -- The induction drops one zero at a time.
  induction digits with
  | nil => rfl
  | cons digit rest ih =>
    by_cases zero : digit = 0
    · simp [zero, ih, wholeWorth]
    · simp [zero]

/-- Trailing zeros count nothing. -/
theorem fractionWorth_rdropWhile (digits : List Nat) :
    fractionWorth (digits.rdropWhile (· == 0)) = fractionWorth digits := by
  -- The digits are taken from the end, where the zeros are.
  induction digits using List.reverseRecOn with
  | nil => rfl
  | append_singleton digits last ih =>
    rw [List.rdropWhile_concat]
    split_ifs with zero
    · -- The last place makes the number ten times as large, and its unit a tenth.
      rw [ih, fractionWorth_eq, fractionWorth_eq, wholeWorth_append, beq_iff_eq.mp zero]
      simp only [wholeWorth, List.length_append, List.length_singleton, pow_succ]
      field_simp
      simp
    · rfl

/-- The significant digits alone decide which number a numeral denotes. -/
theorem denoted_congr {text other : List Char}
    (same : significantDigits other = significantDigits text) : denoted other = denoted text := by
  -- Zeros at either end change neither part of the number.
  obtain ⟨whole, fraction⟩ := Prod.mk.inj same
  rw [denoted, denoted, ← wholeWorth_dropWhile, ← fractionWorth_rdropWhile, whole, fraction,
    wholeWorth_dropWhile, fractionWorth_rdropWhile]

end Digits

/-- The digits of a row count what their values say. -/
theorem DigitRun.map_digitWorth (run : DigitRun) :
    run.characters.map digitWorth = run.values := by
  -- Every character of the row has a value, which is what it counts.
  obtain ⟨characters, nonempty, digits⟩ := run
  simp only [values]
  clear nonempty
  induction characters with
  | nil => rfl
  | cons c others ih =>
    obtain ⟨isDigit, otherDigits⟩ := List.forall_mem_cons.mp digits
    obtain ⟨value, found⟩ := Option.isSome_iff_exists.mp isDigit
    simp [digitWorth, found, ih otherDigits]

/-- No digit is a point. -/
theorem DigitRun.ne_point (run : DigitRun) : ∀ c ∈ run.characters, (c != '.') = true := by
  -- A point has no value.
  intro c member
  have noPoint : Text.isDigit '.' = false := by decide
  simpa using Numeral.ne_of_isDigit (run.digits c member) noPoint

/-- A row of digits has no points. -/
theorem DigitRun.count_point (run : DigitRun) : run.characters.count '.' = 0 := by
  -- There is none among digits.
  refine List.count_eq_zero.mpr fun member => ?_
  simpa using run.ne_point '.' member

/-- A plain numeral has at most one point. -/
theorem PlainNumeral.count_point (numeral : PlainNumeral) : numeral.characters.count '.' ≤ 1 := by
  -- The only point is the one between both parts.
  obtain ⟨whole, fraction⟩ := numeral
  cases fraction with
  | none => simp [characters, whole.count_point]
  | some run => simp [characters, whole.count_point, run.count_point]

/-- A numeral with at most one point is plain. -/
theorem IsNumeral.exists_plain_of_count {text : List Char} (numeral : IsNumeral text)
    (few : text.count '.' ≤ 1) : ∃ number : PlainNumeral, number.characters = text := by
  -- A second point would come after the second row of digits.
  obtain ⟨whole, rfl | ⟨rest, rfl, later⟩⟩ := numeral.split
  · exact ⟨⟨whole, none⟩, by simp [PlainNumeral.characters]⟩
  · obtain ⟨fraction, rfl | ⟨more, rfl, -⟩⟩ := later.split
    · exact ⟨⟨whole, some fraction⟩, rfl⟩
    · simp [List.count_append] at few
      omega

/-- A plain numeral denotes what the decimal number that it writes is worth. -/
theorem PlainNumeral.denoted_characters (numeral : PlainNumeral) :
    denoted numeral.characters = numeral.decimal.worth := by
  -- Both parts count their digits as the decimal number does.
  obtain ⟨whole, fraction⟩ := numeral
  cases fraction with
  | none =>
    have digits : wholeDigits whole.characters = whole.values := by
      rw [wholeDigits, List.takeWhile_eq_self_iff.mpr whole.ne_point, whole.map_digitWorth]
    have none : fractionDigits whole.characters = [] := by
      rw [fractionDigits, List.dropWhile_eq_nil_iff.mpr whole.ne_point]
      rfl
    simp [characters, denoted, digits, none, fractionWorth, decimal, Decimal.worth,
      ofDigits_eq_wholeWorth]
  | some run =>
    -- The point is where the digits before it end.
    have digits : wholeDigits (whole.characters ++ '.' :: run.characters) = whole.values := by
      rw [wholeDigits, List.takeWhile_append_of_pos whole.ne_point]
      simp [whole.map_digitWorth]
    have others : fractionDigits (whole.characters ++ '.' :: run.characters) = run.values := by
      rw [fractionDigits, List.dropWhile_append_of_pos whole.ne_point]
      simp [run.map_digitWorth]
    simp only [characters, denoted, digits, others, decimal, Decimal.worth,
      ofDigits_eq_wholeWorth, wholeWorth_append, fractionWorth_eq, run.length_values, zpow_neg,
      zpow_natCast]
    field_simp

/-- A token of a text that is a literal other than the variable. -/
structure Token.NumeralIn (token : Token) (policy : ConflictPolicy) (rejecting : Bool)
    (text : String) : Prop where
  read : ∃ tokens, tokenize policy rejecting text = .ok tokens ∧ token ∈ tokens
  literal : token.kind = .literal
  unnamed : token.text ≠ Token.variableName

/-- What the recognizer of literals claims is the variable or a numeral. -/
theorem Recognizer.variable_or_isNumeral {before rest : List Char} {c : Char} {claim : Claim}
    {rivals : List Claim} (claimed : claimsAt before (c :: rest) = claim :: rivals)
    (form : claim.form = literal) : claim.lexeme = ['x'] ∨ IsNumeral claim.lexeme := by
  obtain ⟨matched, taken⟩ := mem_claimsAt.mp (claimed ▸ List.mem_cons_self (a := claim))
  rw [form] at matched taken
  rw [taken]
  rcases literal_cases matched with ⟨numeral, -⟩ | ⟨length, letter, -, -⟩
  · exact .inr numeral
  · -- The variable is a single character.
    rw [List.head?_cons, Option.some.injEq] at letter
    exact .inl (by rw [length, letter, List.take_succ_cons, List.take_zero])

/-- Every literal among the pieces of a text is the variable or a numeral. -/
theorem isNumeral_of_piece {before text : List Char} :
    ∀ piece ∈ pieces before text, ∀ token ∈ piece.token?, token.kind = .literal →
      token.text = Token.variableName ∨ IsNumeral token.text.toList := by
  -- The induction follows the scan; literals have what their recognizer has matched.
  fun_induction pieces before text with
  | case1 before => simp
  | case2 before c rest unclaimed ih =>
    refine List.forall_mem_cons.mpr ⟨?_, ih⟩
    simp [Piece.token?]
  | case3 before c rest claim rivals claimed ih =>
    refine List.forall_mem_cons.mpr ⟨fun token made literal => ?_, ih⟩
    obtain ⟨-, lexeme, -⟩ := Recognizer.lexeme_of_claimsAt claimed
    obtain rfl : claim.form.token claim.lexeme = token := by
      rw [lexeme]
      exact Option.mem_some_iff.mp made
    have form : claim.form = .literal := by
      cases found : claim.form <;> simp [Recognizer.token, Recognizer.kind, found] at literal ⊢
    have text : (claim.form.token claim.lexeme).text = String.ofList claim.lexeme := by
      simp [Recognizer.token, form]
    rw [text]
    rcases Recognizer.variable_or_isNumeral claimed form with letter | numeral
    · exact .inl (by rw [letter]; rfl)
    · exact .inr (by rwa [String.toList_ofList])

namespace Token.NumeralIn

variable {token : Token} {policy : ConflictPolicy} {rejecting : Bool} {text : String}

/-- A literal other than the variable is a numeral. -/
theorem isNumeral (found : token.NumeralIn policy rejecting text) :
    IsNumeral token.text.toList := by
  obtain ⟨⟨tokens, read, member⟩, literal, unnamed⟩ := found
  -- The tokens that are read are those that are claimed, whatever the policy is.
  have claimed : claimedTokens (Text.withoutBlanks text.toList) = tokens := by
    unfold tokenize tokenizeChars at read
    split at read
    · cases read
    · split at read
      · cases read
      · split at read
        · cases read
        · exact Except.ok.inj read
  rw [← claimed, claimedTokens_eq, List.mem_filterMap] at member
  obtain ⟨piece, inPieces, made⟩ := member
  exact (isNumeral_of_piece piece inPieces token made literal).resolve_left unnamed

/-- A numeral with two points or more is refused. -/
theorem refused_of_points (found : token.NumeralIn policy rejecting text)
    (many : 2 ≤ token.text.toList.count '.') :
    token.instruction = .refused (.unexpectedToken token.text) := by
  -- Were it read, it would be a plain numeral, which has one point at most.
  have unread : readFloat? token.text = none := by
    by_contra readable
    rw [← String.ofList_toList (s := token.text)] at readable
    obtain ⟨number, same⟩ :=
      found.isNumeral.exists_plain (Option.isSome_iff_ne_none.mpr readable)
    have few := number.count_point
    rw [same] at few
    omega
  simp only [Token.instruction, found.literal, Token.literalInstruction, found.unnamed, if_false,
    unread]

/-- A numeral with at most one point is read as a decimal number that is worth what it denotes. -/
theorem exists_decimal (found : token.NumeralIn policy rejecting text)
    (few : token.text.toList.count '.' ≤ 1) :
    ∃ d : Decimal, token.instruction = .number (d.toFloat false) ∧
      d.worth = denoted token.text.toList := by
  -- It is a plain numeral, and the evaluation reads what the numeral writes.
  obtain ⟨number, same⟩ := found.isNumeral.exists_plain_of_count few
  have read := number.readFloat?_characters
  rw [same, String.ofList_toList] at read
  refine ⟨number.decimal, ?_, by rw [← number.denoted_characters, same]⟩
  simp only [Token.instruction, found.literal, Token.literalInstruction, found.unnamed, if_false,
    read, PlainNumeral.value]

end Token.NumeralIn

/--
The lexer and the evaluation agree on numerals.

Whatever the text, the policy and the treatment of unknown characters, a literal other than the
variable is refused by the evaluation exactly if it has two points or more. Any other is the double
nearest to the number that its digits denote, with ties to even and infinity beyond the range, and
every numeral of some text with the same significant digits, in whatever scripts, is that double.
-/
theorem instruction_of_numeral {token : Token} {policy : ConflictPolicy} {rejecting : Bool}
    {text : String} (found : token.NumeralIn policy rejecting text) :
    let points := token.text.toList.count '.'
    (token.instruction = .refused (.unexpectedToken token.text) ↔ 2 ≤ points) ∧
      (points ≤ 1 → ∃ value, token.instruction = .number value ∧
        Double.RoundsToEven (denoted token.text.toList) value ∧
        ∀ (other : Token) (otherPolicy : ConflictPolicy) (otherRejecting : Bool)
          (otherText : String), other.NumeralIn otherPolicy otherRejecting otherText →
            other.text.toList.count '.' ≤ 1 →
              significantDigits other.text.toList = significantDigits token.text.toList →
                other.instruction = .number value) := by
  intro points
  refine ⟨⟨fun refused => ?_, found.refused_of_points⟩, fun few => ?_⟩
  · -- What has fewer points is read.
    by_contra few
    obtain ⟨d, read, -⟩ := found.exists_decimal (by omega)
    rw [refused] at read
    cases read
  · obtain ⟨d, read, worth⟩ := found.exists_decimal few
    refine ⟨d.toFloat false, read, ?_, fun other _ _ _ foundOther fewOther same => ?_⟩
    · rw [← worth]
      exact d.roundsToEven_toFloat
    · -- Numbers of the same worth have the same pattern.
      obtain ⟨e, readOther, worthOther⟩ := foundOther.exists_decimal fewOther
      have equal : e.worth = d.worth := by rw [worthOther, worth, denoted_congr same]
      rw [readOther, Decimal.toFloat_eq, Decimal.toFloat_eq, Decimal.pattern_congr equal]

/-- Digits of three scripts are read as `3.14` is, and a second point is refused. -/
theorem instruction_of_numeral_scripts :
    let mixed : Token := ⟨"00٣.1४0", .literal⟩
    let plain : Token := ⟨"3.14", .literal⟩
    let pointed : Token := ⟨"1.2.3", .literal⟩
    mixed.NumeralIn .strict true "00٣.1४0+1.2.3" ∧
      pointed.NumeralIn .strict true "00٣.1४0+1.2.3" ∧
      plain.NumeralIn .priority false "3.14 !" ∧
      (∃ value, mixed.instruction = .number value ∧ Double.RoundsToEven (157 / 50) value ∧
        plain.instruction = .number value) ∧
      pointed.instruction = .refused (.unexpectedToken "1.2.3") := by
  -- The digits of each script are worth the same, and zeros at the ends count nothing.
  intro mixed plain pointed
  have foundMixed : mixed.NumeralIn .strict true "00٣.1४0+1.2.3" :=
    ⟨⟨[mixed, .mk "+" .operator, pointed], by decide +kernel, by decide⟩, rfl, by decide⟩
  have foundPointed : pointed.NumeralIn .strict true "00٣.1४0+1.2.3" :=
    ⟨⟨[mixed, .mk "+" .operator, pointed], by decide +kernel, by decide⟩, rfl, by decide⟩
  have foundPlain : plain.NumeralIn .priority false "3.14 !" :=
    ⟨⟨[plain], by decide +kernel, by decide⟩, rfl, by decide⟩
  -- The leading zeros and the last one count nothing.
  have number : denoted mixed.text.toList = 157 / 50 := by
    have whole : wholeDigits mixed.text.toList = [0, 0, 3] := by decide +kernel
    have fraction : fractionDigits mixed.text.toList = [1, 4, 0] := by decide +kernel
    rw [denoted, whole, fraction]
    norm_num [wholeWorth, fractionWorth]
  obtain ⟨value, read, nearest, alike⟩ := (instruction_of_numeral foundMixed).2 (by decide +kernel)
  rw [number] at nearest
  have same : significantDigits plain.text.toList = significantDigits mixed.text.toList := by
    decide +kernel
  exact ⟨foundMixed, foundPointed, foundPlain,
    ⟨value, read, nearest, alike plain _ _ _ foundPlain (by decide +kernel) same⟩,
    (instruction_of_numeral foundPointed).1.mpr (by decide +kernel)⟩

end Formula
