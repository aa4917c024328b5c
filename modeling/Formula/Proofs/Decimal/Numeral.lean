import Formula.Decimal.Numeral
import Formula.Proofs.Text.Character

/-! Plain numerals, with digits and at most one point between them, are read as they are written. -/

namespace Formula

/-- A text does not start with a digit when its first character is none. -/
theorem Text.noDigit_cons {c : Char} (noDigit : isDigit c = false) (rest : List Char) :
    (c :: rest).head?.any isDigit = false := by
  -- Only the first character is looked at.
  rw [List.head?_cons, Option.any_some]
  exact noDigit

/-- A row of decimal digits that is not empty. -/
structure DigitRun where
  characters : List Char
  nonempty : characters ≠ []
  digits : ∀ c ∈ characters, Text.isDigit c = true

namespace DigitRun

/-- One digit by itself. -/
def single (c : Char) (digit : Text.isDigit c = true) : DigitRun where
  characters := [c]
  nonempty := List.cons_ne_nil c []
  digits := fun _ member => List.mem_singleton.mp member ▸ digit

/-- The values of the digits, most significant first. -/
def values (run : DigitRun) : List Nat :=
  run.characters.filterMap Text.digitValue?

/-- Every digit has a value. -/
theorem length_values (run : DigitRun) : run.values.length = run.characters.length := by
  -- No digit is lost when the values are looked up.
  rw [values, List.length_filterMap_eq_countP, List.countP_eq_length]
  exact run.digits

/-- A row of digits has a value. -/
theorem values_ne_nil (run : DigitRun) : run.values ≠ [] := by
  -- A row is not empty, and each of its digits has a value.
  rw [← List.length_pos_iff, run.length_values]
  exact List.length_pos_iff.mpr run.nonempty

/-- A row of digits is read up to anything that is neither a digit nor a low line. -/
theorem digitRun_append (run : DigitRun) {rest : List Char}
    (noDigit : rest.head?.any Text.isDigit = false) (noLine : rest.head? ≠ some '_')
    (afterDigit : Bool) :
    Numeral.digitRun afterDigit (run.characters ++ rest) = (run.values, rest) := by
  -- The digits are read one by one, and what comes after them stops the reading.
  have general : ∀ (characters : List Char), (∀ c ∈ characters, Text.isDigit c = true) →
      ∀ afterDigit, Numeral.digitRun afterDigit (characters ++ rest) =
        (characters.filterMap Text.digitValue?, rest) := by
    intro characters digits
    induction characters with
    | nil =>
      intro afterDigit
      -- The reading stops at the first character that has no value.
      cases rest with
      | nil => rfl
      | cons c rest =>
        have noValue : Text.digitValue? c = none := by simpa [Text.isDigit] using noDigit
        simp only [List.head?_cons, ne_eq, Option.some.injEq] at noLine
        simp [Numeral.digitRun, noValue, noLine]
    | cons c others ih =>
      intro afterDigit
      obtain ⟨digit, others⟩ := List.forall_mem_cons.mp digits
      obtain ⟨value, found⟩ := Option.isSome_iff_exists.mp digit
      simp [Numeral.digitRun, found, ih others]
  exact general run.characters run.digits afterDigit

/-- A row of digits alone is read to its end. -/
theorem digitRun_characters (run : DigitRun) (afterDigit : Bool) :
    Numeral.digitRun afterDigit run.characters = (run.values, []) := by
  -- Nothing comes after the last digit.
  have noDigit : ([] : List Char).head?.any Text.isDigit = false := rfl
  have read := run.digitRun_append noDigit (by simp) afterDigit
  rwa [List.append_nil] at read

end DigitRun

/-- Digits, and perhaps a point with more digits after it. -/
structure PlainNumeral where
  whole : DigitRun
  fraction : Option DigitRun

namespace PlainNumeral

/-- The characters that a numeral is written with. -/
def characters (numeral : PlainNumeral) : List Char :=
  numeral.whole.characters ++
    match numeral.fraction with
    | none => []
    | some run => '.' :: run.characters

/-- The decimal number that a numeral writes. -/
def decimal (numeral : PlainNumeral) : Decimal :=
  match numeral.fraction with
  | none => ⟨Numeral.ofDigits numeral.whole.values, 0⟩
  | some run => ⟨Numeral.ofDigits (numeral.whole.values ++ run.values), -run.characters.length⟩

/-- The double nearest to the decimal number that a numeral writes. -/
def value (numeral : PlainNumeral) : Float :=
  numeral.decimal.toFloat false

/-- A numeral starts with a digit. -/
theorem head (numeral : PlainNumeral) :
    ∃ c rest, numeral.characters = c :: rest ∧ Text.isDigit c = true := by
  -- The whole part is not empty.
  obtain ⟨⟨characters, nonempty, digits⟩, fraction⟩ := numeral
  obtain ⟨c, rest, rfl⟩ := List.exists_cons_of_ne_nil nonempty
  exact ⟨c, _, rfl, digits c (by simp)⟩

/-- The characters of a numeral are digits and points. -/
theorem digit_or_point (numeral : PlainNumeral) {c : Char} (member : c ∈ numeral.characters) :
    Text.isDigit c = true ∨ c = '.' := by
  -- Each part of the numeral is made of digits, and a point is between them.
  obtain ⟨whole, fraction⟩ := numeral
  rcases List.mem_append.mp member with inWhole | inFraction
  · exact .inl (whole.digits c inWhole)
  · cases fraction with
    | none => cases inFraction
    | some run =>
      rcases List.mem_cons.mp inFraction with rfl | inRun
      · exact .inr rfl
      · exact .inl (run.digits c inRun)

/-- A numeral is read up to the mark of its power of ten, or to the end. -/
theorem decimal?_append (numeral : PlainNumeral) {rest : List Char}
    (noDigit : rest.head?.any Text.isDigit = false) (noLine : rest.head? ≠ some '_')
    (noPoint : rest.head? ≠ some '.') :
    Numeral.decimal? (numeral.characters ++ rest) = (Numeral.scale? rest).map fun scale =>
      ⟨numeral.decimal.coefficient, scale + numeral.decimal.exponent⟩ := by
  -- The whole part and the fraction are read one after the other.
  obtain ⟨whole, fraction⟩ := numeral
  have someDigit := whole.values_ne_nil
  cases fraction with
  | none =>
    have read := whole.digitRun_append noDigit noLine false
    have none : Numeral.fractionRun rest = ([], rest) := by
      unfold Numeral.fractionRun
      split
      · exact absurd rfl noPoint
      · rfl
    simp [characters, decimal, Numeral.decimal?, read, none, someDigit]
  -- The point ends the whole part, and the fraction has its own digits.
  | some run =>
    have point := @Text.noDigit_cons '.' (by decide) (run.characters ++ rest)
    have read := whole.digitRun_append point (by simp) false
    have readFraction := run.digitRun_append noDigit noLine false
    simp [characters, decimal, Numeral.decimal?, read, Numeral.fractionRun, readFraction,
      someDigit, run.length_values, Int.sub_eq_add_neg]

/-- A numeral is read as the decimal number that it writes. -/
theorem decimal?_characters (numeral : PlainNumeral) :
    Numeral.decimal? numeral.characters = some numeral.decimal := by
  -- Nothing comes after the numeral, so that there is no power of ten.
  have noDigit : ([] : List Char).head?.any Text.isDigit = false := rfl
  have read := numeral.decimal?_append noDigit (by simp) (by simp)
  rw [List.append_nil] at read
  simp [read, Numeral.scale?]

end PlainNumeral

namespace Text

/-- No digit is a blank. -/
theorem isBlank_of_isDigit {c : Char} (digit : isDigit c = true) : isBlank c = false := by
  -- The tables of blanks and of digits have no range in common.
  have apart : ∀ origin ∈ digitZeros, ∀ range ∈ blankRanges,
      range.2 < origin ∨ origin + 10 ≤ range.1 := by decide
  obtain ⟨origin, listed, lower, upper⟩ := isDigit_iff.mp digit
  rw [isBlank, inRanges, List.any_eq_false]
  intro range member
  have distance := apart origin listed range member
  simp only [Bool.and_eq_true, decide_eq_true_eq]
  omega

/-- A digit has no small letter other than itself. -/
theorem toLower_of_isDigit {c : Char} (digit : isDigit c = true) : c.toLower = c := by
  -- Digits lie outside the range of capital letters.
  have bounds := isDigit_bounds digit
  have notUpper : ¬('A'.val ≤ c.val ∧ c.val ≤ 'Z'.val) := by
    simp only [UInt32.le_iff_toNat_le]
    intro upper
    have value : c.val.toNat = c.toNat := rfl
    simp only [Char.reduceVal, UInt32.reduceToNat] at upper
    omega
  unfold Char.toLower
  split
  · rename_i upper
    exact absurd upper notUpper
  · rfl

end Text

namespace Numeral

/-- Nothing is trimmed off a text without blanks. -/
theorem trim_eq {text : List Char} (noBlank : ∀ c ∈ text, Text.isNumberBlank c = false) :
    trim text = text := by
  -- Neither end of the text has a blank that could be dropped.
  have kept : ∀ text : List Char, (∀ c ∈ text, Text.isNumberBlank c = false) →
      text.dropWhile Text.isNumberBlank = text := by
    intro text none
    cases text with
    | nil => rfl
    | cons c others => exact List.dropWhile_cons_of_neg (by simp [none c (by simp)])
  have backwards : ∀ c ∈ text.reverse, Text.isNumberBlank c = false :=
    fun c member => noBlank c (List.mem_reverse.mp member)
  rw [trim, kept _ noBlank, kept _ backwards, List.reverse_reverse]

/-- A digit is not another character that is none. -/
theorem ne_of_isDigit {c other : Char} (digit : Text.isDigit c = true)
    (noDigit : Text.isDigit other = false) : c ≠ other := by
  -- Of the same character it cannot be said that it is a digit and that it is none.
  rintro rfl
  rw [digit] at noDigit
  cases noDigit

/-- A text that starts with a digit has no sign. -/
theorem signed_eq {c : Char} {rest : List Char} (digit : Text.isDigit c = true) :
    signed (c :: rest) = (false, c :: rest) := by
  -- Neither sign is a digit.
  have noMinus : c ≠ '-' := ne_of_isDigit digit (by decide)
  have noPlus : c ≠ '+' := ne_of_isDigit digit (by decide)
  unfold signed
  split
  · rename_i same
    exact absurd (List.cons.inj same).1 noMinus
  · rename_i same
    exact absurd (List.cons.inj same).1 noPlus
  · rfl

/-- What a written number may have before its first digit. -/
def minus (negative : Bool) : List Char :=
  if negative then ['-'] else []

/-- From a digit on, a text is read as a decimal number with the sign before it, or not at all. -/
theorem ofChars?_minus (negative : Bool) {c : Char} {rest : List Char}
    (digit : Text.isDigit c = true) (noBlank : ∀ d ∈ c :: rest, Text.isNumberBlank d = false) :
    ofChars? (minus negative ++ c :: rest) = (decimal? (c :: rest)).map (.finite negative) := by
  -- Blanks are not found, and no name starts with a digit.
  have trimmed : trim (minus negative ++ c :: rest) = minus negative ++ c :: rest := by
    apply trim_eq
    intro d member
    rcases List.mem_append.mp member with sign | later
    · cases negative with
      | false => cases sign
      | true =>
        rw [List.mem_singleton.mp sign]
        decide
    · exact noBlank d later
  have unsigned : signed (minus negative ++ c :: rest) = (negative, c :: rest) := by
    cases negative with
    | false => exact signed_eq digit
    | true => rfl
  have lower := Text.toLower_of_isDigit digit
  have noInfinity : c ≠ 'i' := ne_of_isDigit digit (by decide)
  have noName : c ≠ 'n' := ne_of_isDigit digit (by decide)
  simp [ofChars?, trimmed, unsigned, lower, infinityNames, noInfinity, noName]

/-- Digits and points are read as a decimal number without a sign, or not at all. -/
theorem ofChars?_eq {c : Char} {rest : List Char} (digit : Text.isDigit c = true)
    (parts : ∀ d ∈ rest, Text.isDigit d = true ∨ d = '.') :
    ofChars? (c :: rest) = (decimal? (c :: rest)).map (.finite false) := by
  -- Neither digits nor points are blanks.
  refine ofChars?_minus false digit fun d member => ?_
  have blank : Text.isBlank d = false := by
    rcases List.mem_cons.mp member with rfl | later
    · exact Text.isBlank_of_isDigit digit
    · rcases parts d later with isDigit | rfl
      · exact Text.isBlank_of_isDigit isDigit
      · decide
  simp [Text.isNumberBlank, blank]

end Numeral

/-- Digits with two points among them are not read. -/
theorem Numeral.decimal?_two_points (whole fraction : DigitRun) (rest : List Char) :
    Numeral.decimal? (whole.characters ++ '.' :: (fraction.characters ++ '.' :: rest)) = none := by
  -- After the fraction, the second point is left over.
  have noDigit := @Text.noDigit_cons '.' (by decide)
  have readWhole := whole.digitRun_append (noDigit (fraction.characters ++ '.' :: rest)) (by simp)
    false
  have readFraction := fraction.digitRun_append (noDigit rest) (by simp) false
  simp [Numeral.decimal?, readWhole, Numeral.fractionRun, readFraction, Numeral.scale?]

/-- A plain numeral is read as the double nearest to the decimal number that it writes. -/
theorem PlainNumeral.readFloat?_characters (numeral : PlainNumeral) :
    readFloat? (String.ofList numeral.characters) = some numeral.value := by
  -- Nothing but the decimal number is read off the characters.
  have parts : ∀ c ∈ numeral.characters, Text.isDigit c = true ∨ c = '.' :=
    fun c => numeral.digit_or_point
  have read := numeral.decimal?_characters
  obtain ⟨c, rest, first, digit⟩ := numeral.head
  rw [first] at parts read ⊢
  have written := Numeral.ofChars?_eq digit fun d member => parts d (List.mem_cons_of_mem c member)
  simp [readFloat?, written, read, Numeral.value, value]

end Formula
