import Formula.Proofs.Decimal.Numeral
import Formula.Proofs.Lexer.Lexeme

/-! Of the numerals that the lexer knows, those can be read that have at most one point. -/

namespace Formula

/-- Digits are a numeral by themselves, and before a point and another numeral. -/
theorem DigitRun.isNumeral (run : DigitRun) :
    IsNumeral run.characters ∧
      ∀ rest, IsNumeral rest → IsNumeral (run.characters ++ '.' :: rest) := by
  -- The induction is on the digits, the last of which stands before the point.
  obtain ⟨characters, nonempty, digits⟩ := run
  simp only
  induction characters with
  | nil => exact absurd rfl nonempty
  | cons c others ih =>
    obtain ⟨isDigit, otherDigits⟩ := List.forall_mem_cons.mp digits
    cases others with
    | nil => exact ⟨.digit isDigit, fun rest numeral => .point isDigit numeral⟩
    | cons d more =>
      obtain ⟨alone, before⟩ := ih (List.cons_ne_nil d more) otherDigits
      exact ⟨.more isDigit alone, fun rest numeral => .more isDigit (before rest numeral)⟩

/-- A plain numeral is a numeral. -/
theorem PlainNumeral.isNumeral (number : PlainNumeral) : IsNumeral number.characters := by
  -- A numeral with a fraction is one row of digits before the point of another.
  obtain ⟨whole, fraction⟩ := number
  cases fraction with
  | none => simpa [characters] using whole.isNumeral.1
  | some run => exact whole.isNumeral.2 run.characters run.isNumeral.1

namespace IsNumeral

/-- A numeral is a row of digits, with a point and another numeral after it or not. -/
theorem split {text : List Char} (numeral : IsNumeral text) :
    ∃ run : DigitRun, text = run.characters ∨
      ∃ rest, text = run.characters ++ '.' :: rest ∧ IsNumeral rest := by
  -- Digits are added to the first row, and a point starts another numeral.
  induction numeral with
  | @digit c isDigit => exact ⟨⟨[c], by simp, by simpa using isDigit⟩, .inl rfl⟩
  | @more c rest isDigit _ ih =>
    obtain ⟨⟨characters, nonempty, digits⟩, parts⟩ := ih
    have longer : ∀ d ∈ c :: characters, Text.isDigit d = true :=
      List.forall_mem_cons.mpr ⟨isDigit, digits⟩
    refine ⟨⟨c :: characters, by simp, longer⟩, ?_⟩
    rcases parts with rfl | ⟨others, rfl, later⟩
    · exact .inl rfl
    · exact .inr ⟨others, rfl, later⟩
  | @point c rest isDigit later _ =>
    exact ⟨⟨[c], by simp, by simpa using isDigit⟩, .inr ⟨rest, rfl, later⟩⟩

/-- A numeral has digits and points only. -/
theorem digit_or_point {text : List Char} (numeral : IsNumeral text) :
    ∀ c ∈ text, Text.isDigit c = true ∨ c = '.' := by
  -- Every rule adds a digit, or a digit and a point.
  induction numeral with
  | digit isDigit => simpa using .inl isDigit
  | more isDigit _ ih => exact List.forall_mem_cons.mpr ⟨.inl isDigit, ih⟩
  | point isDigit _ ih =>
    exact List.forall_mem_cons.mpr ⟨.inl isDigit, List.forall_mem_cons.mpr ⟨.inr rfl, ih⟩⟩

/-- A numeral that can be read is plain. -/
theorem exists_plain {text : List Char} (numeral : IsNumeral text)
    (readable : (readFloat? (String.ofList text)).isSome) :
    ∃ number : PlainNumeral, number.characters = text := by
  -- The first two rows of digits are all that a plain numeral can have.
  obtain ⟨whole, rfl | ⟨rest, rfl, later⟩⟩ := numeral.split
  · exact ⟨⟨whole, none⟩, by simp [PlainNumeral.characters]⟩
  · obtain ⟨fraction, rfl | ⟨more, rfl, -⟩⟩ := later.split
    · exact ⟨⟨whole, some fraction⟩, rfl⟩
    · -- With a second point, nothing is read.
      obtain ⟨c, others, first, isDigit⟩ := numeral.head
      have parts := numeral.digit_or_point
      have unread := Numeral.decimal?_two_points whole fraction more
      rw [first] at parts unread readable
      have written := Numeral.ofChars?_eq isDigit fun d member =>
        parts d (List.mem_cons_of_mem c member)
      simp [readFloat?, written, unread] at readable

end IsNumeral

end Formula
