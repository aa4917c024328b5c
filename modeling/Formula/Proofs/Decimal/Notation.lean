import Formula.Decimal.Notation
import Formula.Proofs.Decimal.Numeral
import Formula.Proofs.Decimal.Worth

/-! Written forms of decimal numbers are read back: what is written is worth what it stands for. -/

namespace Formula

/-- An ASCII digit is worth its distance from zero. -/
theorem Text.digitValue?_of_isDigit {c : Char} (ascii : c.isDigit = true) :
    digitValue? c = some (c.toNat - 48) := by
  -- ASCII is the first script of the table.
  have bounds : 48 ≤ c.toNat ∧ c.toNat ≤ 57 := by
    simpa [Char.isDigit, UInt32.le_iff_toNat_le] using ascii
  have first : digitZeros = 48 :: digitZeros.tail := rfl
  have within : c.toNat < 58 := by omega
  rw [digitValue?, first]
  simp [bounds, within]

/-- An ASCII digit is a digit. -/
theorem Text.isDigit_of_ascii {c : Char} (ascii : c.isDigit = true) : isDigit c = true := by
  -- It has a value, which is all that is asked of a digit.
  rw [isDigit, digitValue?_of_isDigit ascii]
  rfl

/-- A row of ASCII digits writes the number that their distances from zero do. -/
theorem Numeral.ofDigits_ascii {text : List Char} (ascii : ∀ c ∈ text, c.isDigit = true) :
    ofDigits (text.filterMap Text.digitValue?) = Nat.ofDigitChars 10 text 0 := by
  -- The induction takes one digit at a time into what has been read before it.
  have general : ∀ whole, (text.filterMap Text.digitValue?).foldl (fun whole digit =>
      10 * whole + digit) whole = Nat.ofDigitChars 10 text whole := by
    induction text with
    | nil =>
      intro whole
      rfl
    | cons c rest ih =>
      intro whole
      obtain ⟨digit, others⟩ := List.forall_mem_cons.mp ascii
      rw [List.filterMap_cons_some (Text.digitValue?_of_isDigit digit), List.foldl_cons,
        ih others, Nat.ofDigitChars_cons]
      rfl
  exact general 0

/-- The digits of a whole number, with zeros before them up to a number of places. -/
def paddedDigits (places n : Nat) : List Char :=
  List.replicate (places - (Nat.toDigits 10 n).length) '0' ++ Nat.toDigits 10 n

/-- A whole number is written with ASCII digits. -/
theorem isDigit_paddedDigits {places n : Nat} {c : Char} (member : c ∈ paddedDigits places n) :
    c.isDigit = true := by
  -- The padding is made of zeros, and the rest of decimal digits.
  rcases List.mem_append.mp member with zero | digit
  · rw [List.eq_of_mem_replicate zero]
    rfl
  · exact Nat.isDigit_of_mem_toDigits (by decide) (by decide) digit

/-- Zeros before a whole number do not change it. -/
theorem ofDigitChars_paddedDigits (places n : Nat) :
    Nat.ofDigitChars 10 (paddedDigits places n) 0 = n := by
  -- Nothing has been read before the digits when the zeros are over.
  rw [paddedDigits, Nat.ofDigitChars_append, Nat.ofDigitChars_replicate_zero, Nat.mul_zero,
    Nat.ofDigitChars_ten_toDigits]

/-- A whole number that fits into some places is written with as many digits. -/
theorem length_paddedDigits {places n : Nat} (positive : 0 < places) (fits : n < 10 ^ places) :
    (paddedDigits places n).length = places := by
  -- A number below the power of ten has no more digits than places.
  have short := (Nat.length_toDigits_le_iff (by decide) positive).mpr fits
  rw [paddedDigits, List.length_append, List.length_replicate]
  omega

/-- The row of digits of a whole number. -/
def DigitRun.ofNat (places n : Nat) : DigitRun where
  characters := paddedDigits places n
  nonempty := by simp [paddedDigits]
  digits := fun _ member => Text.isDigit_of_ascii (isDigit_paddedDigits member)

/-- The row of digits of a whole number writes that number. -/
theorem DigitRun.ofDigits_ofNat (places n : Nat) :
    Numeral.ofDigits (ofNat places n).values = n := by
  -- All characters of the row are ASCII digits.
  have value := Numeral.ofDigits_ascii fun c => @isDigit_paddedDigits places n c
  rwa [ofDigitChars_paddedDigits] at value

namespace PlainNumeral

/-- The numeral of a whole number of units of a decimal place, written with that many places. -/
def ofUnits (places units : Nat) : PlainNumeral where
  whole := .ofNat 0 (units / 10 ^ places)
  fraction := some (.ofNat places (units % 10 ^ places))

/-- A numeral with decimal places is worth its units. -/
theorem decimal_ofUnits {places : Nat} (positive : 0 < places) (units : Nat) :
    (ofUnits places units).decimal = ⟨units, -places⟩ := by
  -- The digits of the fraction take as many places as the whole part is shifted by.
  have fits : units % 10 ^ places < 10 ^ places := Nat.mod_lt _ (by positivity)
  have count := length_paddedDigits positive fits
  have ascii : ∀ c ∈ paddedDigits 0 (units / 10 ^ places) ++
      paddedDigits places (units % 10 ^ places), c.isDigit = true := by
    intro c member
    rcases List.mem_append.mp member with whole | fraction
    · exact isDigit_paddedDigits whole
    · exact isDigit_paddedDigits fraction
  have value := Numeral.ofDigits_ascii ascii
  rw [List.filterMap_append, Nat.ofDigitChars_append, ofDigitChars_paddedDigits,
    Nat.ofDigitChars_eq_ofDigitChars_zero, ofDigitChars_paddedDigits, count,
    Nat.div_add_mod] at value
  simp only [decimal, ofUnits, DigitRun.ofNat, DigitRun.values, Decimal.mk.injEq]
  exact ⟨value, by rw [count]⟩

/-- The numeral of a whole number without a point. -/
def ofWhole (n : Nat) : PlainNumeral where
  whole := .ofNat 0 n
  fraction := none

/-- A numeral without a point is worth its whole number. -/
theorem decimal_ofWhole (n : Nat) : (ofWhole n).decimal = ⟨n, 0⟩ := by
  -- There is no fraction to be counted.
  simp only [decimal, ofWhole, DigitRun.ofDigits_ofNat]

end PlainNumeral

namespace Decimal

/-- Fixed notation is a numeral with a point. -/
theorem toList_writeFixed (places units : Nat) :
    (writeFixed places units).toList = (PlainNumeral.ofUnits places units).characters := by
  -- The two parts are padded in the same way by both.
  simp [writeFixed, PlainNumeral.characters, PlainNumeral.ofUnits, DigitRun.ofNat, paddedDigits]

/-- A whole number is written as a numeral without a point. -/
theorem toList_whole (n : Nat) : (toString n).toList = (PlainNumeral.ofWhole n).characters := by
  simp [PlainNumeral.characters, PlainNumeral.ofWhole, DigitRun.ofNat, paddedDigits]

/-- The sign that an exponent is written with. -/
def exponentSign (exponent : Int) : Char :=
  if exponent < 0 then '-' else '+'

/-- An exponent is written with a mark, a sign and at least two digits. -/
theorem toList_writeExponent (exponent : Int) :
    (writeExponent exponent).toList =
      'e' :: exponentSign exponent :: (DigitRun.ofNat 2 exponent.natAbs).characters := by
  -- A single digit has one zero before it, and more digits have none.
  have zeros : (if (toString exponent.natAbs).length < 2 then "0" else "").toList =
      List.replicate (2 - (Nat.toDigits 10 exponent.natAbs).length) '0' := by
    have some := @Nat.length_toDigits_pos 10 exponent.natAbs
    have count : (toString exponent.natAbs).length =
        (Nat.toDigits 10 exponent.natAbs).length := by
      rw [Nat.toString_eq_ofList_toDigits, String.length_ofList]
    rw [count]
    split_ifs with single
    · have one : 2 - (Nat.toDigits 10 exponent.natAbs).length = 1 := by omega
      rw [one]
      rfl
    · have none : 2 - (Nat.toDigits 10 exponent.natAbs).length = 0 := by omega
      rw [none]
      rfl
  have mark : (if exponent < 0 then "e-" else "e+").toList = ['e', exponentSign exponent] := by
    unfold exponentSign
    split_ifs <;> rfl
  simp only [writeExponent, String.toList_append, zeros, mark]
  simp [DigitRun.ofNat, paddedDigits]

/-- A written exponent is read back. -/
theorem scale?_writeExponent (exponent : Int) :
    Numeral.scale? (writeExponent exponent).toList = some exponent := by
  -- The sign is read first, and then the digits up to the end.
  set run := DigitRun.ofNat 2 exponent.natAbs with written
  have read := run.digitRun_characters false
  have size : Numeral.ofDigits run.values = exponent.natAbs :=
    DigitRun.ofDigits_ofNat 2 exponent.natAbs
  have signed : Numeral.signed (exponentSign exponent :: run.characters) =
      (decide (exponent < 0), run.characters) := by
    unfold exponentSign
    split_ifs with negative <;> simp [Numeral.signed, negative]
  rw [toList_writeExponent, ← written]
  obtain ⟨digit, digits, values⟩ := List.exists_cons_of_ne_nil run.values_ne_nil
  rw [values] at read size
  simp only [Numeral.scale?, signed, read, size, beq_self_eq_true, Bool.true_or, if_true,
    decide_eq_true_eq, Option.some.injEq]
  split_ifs <;> omega

/-- Numbers that are written without an exponent. -/
def IsPositional (d : Decimal) : Prop :=
  d.coefficient = 0 ∨ -4 ≤ d.leadingExponent ∧ d.leadingExponent < 16

instance (d : Decimal) : Decidable d.IsPositional :=
  inferInstanceAs (Decidable (_ ∨ _))

/-- Positional notation is a numeral with a point that is worth the number. -/
theorem write_of_isPositional {d : Decimal} (positional : d.IsPositional) :
    ∃ places units, d.write.toList = (PlainNumeral.ofUnits places units).characters ∧
      (PlainNumeral.ofUnits places units).decimal.worth = d.worth := by
  by_cases zero : d.coefficient = 0
  · -- Zero has one decimal place.
    have written : d.write = writeFixed 1 0 := by
      rw [write, if_pos zero]
      rfl
    refine ⟨1, 0, by rw [written, toList_writeFixed], ?_⟩
    rw [PlainNumeral.decimal_ofUnits (by decide), worth, worth, zero, Nat.cast_zero, zero_mul,
      zero_mul]
  · have within := positional.resolve_left zero
    rw [write, if_neg zero, if_pos within, writePositional]
    split_ifs with fraction
    · -- Each digit of the fraction is a decimal place.
      have places : 0 < d.exponent.natAbs := by omega
      refine ⟨d.exponent.natAbs, d.coefficient, toList_writeFixed _ _, ?_⟩
      have exponent : -(d.exponent.natAbs : ℤ) = d.exponent := by omega
      rw [PlainNumeral.decimal_ofUnits places, exponent]
    · -- A whole number is written with a zero after the point.
      refine ⟨1, d.coefficient * 10 ^ (d.exponent.toNat + 1), toList_writeFixed _ _, ?_⟩
      have exponent : d.exponent = ((d.exponent.toNat + 1 : ℕ) : ℤ) + (-1 : ℤ) := by omega
      rw [PlainNumeral.decimal_ofUnits (by decide), worth, worth]
      conv_rhs => rw [exponent, zpow_add₀ (by norm_num), zpow_natCast]
      push_cast
      ring

/-- Scientific notation is a numeral that makes up the number together with the exponent. -/
theorem write_of_not_isPositional {d : Decimal} (scientific : ¬d.IsPositional) :
    ∃ numeral : PlainNumeral,
      d.write.toList = numeral.characters ++ (writeExponent d.leadingExponent).toList ∧
        d = ⟨numeral.decimal.coefficient, d.leadingExponent + numeral.decimal.exponent⟩ := by
  obtain ⟨nonzero, beyond⟩ := not_or.mp scientific
  have some : 0 < digitCount d.coefficient := Nat.length_toDigits_pos
  have leading : d.leadingExponent = d.exponent + digitCount d.coefficient - 1 := rfl
  rw [write, if_neg nonzero, if_neg beyond, writeScientific]
  -- All digits but the first stand after the point.
  by_cases single : digitCount d.coefficient - 1 = 0
  · refine ⟨.ofWhole d.coefficient, ?_, ?_⟩
    · rw [if_pos single, String.toList_append, toList_whole]
    · have exponent : d.leadingExponent + 0 = d.exponent := by omega
      rw [PlainNumeral.decimal_ofWhole, exponent]
  · refine ⟨.ofUnits (digitCount d.coefficient - 1) d.coefficient, ?_, ?_⟩
    · simp only [single, if_false, String.toList_append, toList_writeFixed]
    · have exponent : d.leadingExponent + -((digitCount d.coefficient - 1 : ℕ) : ℤ) =
          d.exponent := by omega
      rw [PlainNumeral.decimal_ofUnits (by omega), exponent]

/-- A numeral may come before the rest of a written form. -/
theorem write_eq_append (d : Decimal) :
    ∃ (numeral : PlainNumeral) (rest : List Char), d.write.toList = numeral.characters ++ rest ∧
      (rest = [] ∨ rest = (writeExponent d.leadingExponent).toList) := by
  -- Only scientific notation has something after the numeral.
  by_cases positional : d.IsPositional
  · obtain ⟨places, units, written, -⟩ := write_of_isPositional positional
    exact ⟨_, [], by rw [written, List.append_nil], .inl rfl⟩
  · obtain ⟨numeral, written, -⟩ := write_of_not_isPositional positional
    exact ⟨numeral, _, written, .inr rfl⟩

/-- A written form starts with a digit. -/
theorem head_write (d : Decimal) :
    ∃ c rest, d.write.toList = c :: rest ∧ Text.isDigit c = true := by
  -- The numeral at the beginning starts with a digit.
  obtain ⟨numeral, rest, written, -⟩ := d.write_eq_append
  obtain ⟨c, others, first, digit⟩ := numeral.head
  exact ⟨c, others ++ rest, by rw [written, first, List.cons_append], digit⟩

/-- A written form has digits, and besides only points, marks and signs. -/
theorem characters_write (d : Decimal) :
    ∀ c ∈ d.write.toList, Text.isDigit c = true ∨ c ∈ ['.', 'e', '-', '+'] := by
  -- The numeral has digits and a point, and the exponent brings a mark and a sign.
  obtain ⟨numeral, rest, written, exponent⟩ := d.write_eq_append
  intro c member
  rw [written] at member
  rcases List.mem_append.mp member with before | after
  · rcases numeral.digit_or_point before with digit | point
    · exact .inl digit
    · exact .inr (by simp [point])
  · rcases exponent with rfl | rfl
    · cases after
    · rw [toList_writeExponent, List.mem_cons, List.mem_cons] at after
      rcases after with rfl | rfl | digit
      · exact .inr (by simp)
      · unfold exponentSign
        split_ifs <;> simp
      · exact .inl ((DigitRun.ofNat 2 _).digits c digit)

/-- No other character is in a written form. -/
theorem not_mem_write (d : Decimal) {c : Char} (noDigit : Text.isDigit c = false)
    (other : c ∉ ['.', 'e', '-', '+']) : c ∉ d.write.toList := by
  -- All characters of a written form are of these kinds.
  intro member
  rcases d.characters_write c member with digit | listed
  · rw [noDigit] at digit
    cases digit
  · exact other listed

/-- A written decimal number is read as one of the same worth. -/
theorem decimal?_write (d : Decimal) :
    ∃ read, Numeral.decimal? d.write.toList = some read ∧ read.worth = d.worth := by
  -- Without an exponent, the numeral is all that is read.
  by_cases positional : d.IsPositional
  · obtain ⟨places, units, written, worth⟩ := write_of_isPositional positional
    exact ⟨_, by rw [written, PlainNumeral.decimal?_characters], worth⟩
  · -- The exponent is read after the numeral.
    obtain ⟨numeral, written, whole⟩ := write_of_not_isPositional positional
    have mark := toList_writeExponent d.leadingExponent
    have noDigit : (writeExponent d.leadingExponent).toList.head?.any Text.isDigit = false := by
      rw [mark]
      exact Text.noDigit_cons (by decide) _
    have read := numeral.decimal?_append noDigit (by simp [mark]) (by simp [mark])
    rw [scale?_writeExponent, Option.map_some, ← whole] at read
    exact ⟨d, by rw [written, read], rfl⟩

/-- The text of a finite double is the shortest form of its magnitude, after its sign. -/
theorem toList_text {x : Float} (finite : x.isFinite = true) :
    (text x).toList = Numeral.minus (Double.isNegative x) ++ (shortest x).write.toList := by
  rw [text, writeSigned, Double.isNaN_of_isFinite finite, finite]
  cases Double.isNegative x <;> simp [Numeral.minus]

/-- The text of a finite double denotes the double. -/
theorem readFloat?_text {x : Float} (finite : x.isFinite = true) :
    readFloat? (text x) = some x := by
  -- What is read is worth the shortest number, which is converted to the double.
  obtain ⟨read, decimal, worth⟩ := (shortest x).decimal?_write
  obtain ⟨c, rest, first, digit⟩ := (shortest x).head_write
  have noBlank : ∀ d ∈ c :: rest, Text.isNumberBlank d = false := by
    intro d member
    rw [← first] at member
    have blank : Text.isBlank d = false := by
      rcases (shortest x).characters_write d member with isDigit | other
      · exact Text.isBlank_of_isDigit isDigit
      · simp only [List.mem_cons, List.not_mem_nil, or_false] at other
        rcases other with rfl | rfl | rfl | rfl <;> decide
    simp [Text.isNumberBlank, blank]
  have signed := Numeral.ofChars?_minus (Double.isNegative x) digit noBlank
  rw [← first, ← toList_text finite, decimal, Option.map_some] at signed
  rw [readFloat?, signed, Option.map_some, Numeral.value, toFloat_eq, pattern_congr worth,
    ← toFloat_eq, toFloat_shortest finite]

end Decimal

end Formula
