import Formula.Text.Blank
import Formula.Text.Digit
import Formula.Text.Word

/-! Classes of characters: digits and letters are word characters, and no letter is a digit. -/

namespace Formula.Text

/-- A digit is one of the ten characters from the zero of some script on. -/
theorem isDigit_iff {c : Char} :
    isDigit c = true ↔ ∃ origin ∈ digitZeros, origin ≤ c.toNat ∧ c.toNat < origin + 10 := by
  -- A digit has a value exactly if a script with its zero is found.
  simp [isDigit, digitValue?]

/-- A digit is an ASCII digit or lies beyond all ASCII characters. -/
theorem isDigit_bounds {c : Char} (digit : isDigit c = true) :
    (0x30 ≤ c.toNat ∧ c.toNat < 0x3a) ∨ 0x660 ≤ c.toNat := by
  -- Only the first script of the table lies within ASCII.
  have scripts : ∀ origin ∈ digitZeros, origin = 0x30 ∨ 0x660 ≤ origin := by decide
  obtain ⟨origin, listed, lower, upper⟩ := isDigit_iff.mp digit
  -- Only for the script within ASCII does the upper bound matter.
  rcases scripts origin listed with rfl | beyond
  · exact .inl ⟨lower, upper⟩
  · exact .inr (by omega)

/-- A letter is one of the fifty-two ASCII letters. -/
theorem isAlpha_bounds {c : Char} (letter : c.isAlpha = true) :
    (0x41 ≤ c.toNat ∧ c.toNat ≤ 0x5a) ∨ (0x61 ≤ c.toNat ∧ c.toNat ≤ 0x7a) := by
  -- A letter is a capital or a small one.
  unfold Char.isAlpha Char.isUpper Char.isLower at letter
  simp only [Bool.or_eq_true, Bool.and_eq_true, decide_eq_true_eq, ge_iff_le,
    UInt32.le_iff_toNat_le] at letter
  exact letter

/-- No letter is a digit. -/
theorem isDigit_of_isAlpha {c : Char} (letter : c.isAlpha = true) : isDigit c = false := by
  -- All letters lie between the digits of ASCII and those of other scripts.
  rw [Bool.eq_false_iff]
  intro digit
  have letterBounds := isAlpha_bounds letter
  have digitBounds := isDigit_bounds digit
  omega

/-- A letter is a word character. -/
theorem isWord_of_isAlpha {c : Char} (letter : c.isAlpha = true) : isWord c = true := by
  -- Letters are among the characters of ASCII that are listed by hand.
  have bounds := isAlpha_bounds letter
  have ascii : c.toNat < 0x80 := by omega
  simp [isWord, ascii, Char.isAlphanum, letter]

/-- The ten digits of a script lie within a range of characters. -/
def scriptWithin (range : Nat × Nat) (origin : Nat) : Bool :=
  range.1 ≤ origin && origin + 9 ≤ range.2

/-- Scripts that are used up by ranges in turn each lie within one of these ranges. -/
theorem exists_range_of_foldl {ranges : List (Nat × Nat)} {origins : List Nat}
    (used : ranges.foldl (fun left range => left.dropWhile (scriptWithin range)) origins = []) :
    ∀ origin ∈ origins, ∃ range ∈ ranges, scriptWithin range origin = true := by
  -- The first range uses up some scripts, and the others are left to those after it.
  induction ranges generalizing origins with
  | nil =>
    intro origin member
    simp only [List.foldl_nil] at used
    simp [used] at member
  | cons range rest ih =>
    intro origin member
    rw [← List.takeWhile_append_dropWhile (p := scriptWithin range) (l := origins),
      List.mem_append] at member
    rcases member with here | later
    · exact ⟨range, by simp, List.all_eq_true.mp List.all_takeWhile origin here⟩
    · obtain ⟨other, listed, within⟩ := ih (by simpa using used) origin later
      exact ⟨other, by simp [listed], within⟩

/-- A digit is a word character. -/
theorem isWord_of_isDigit {c : Char} (digit : isDigit c = true) : isWord c = true := by
  -- Both tables ascend, so one walk through the word characters meets every script but ASCII.
  have walk : wordRanges.foldl (fun left range => left.dropWhile (scriptWithin range))
      digitZeros.tail = [] := by decide +kernel
  have beyondAscii : ∀ origin ∈ digitZeros.tail, 0x80 ≤ origin := by decide
  obtain ⟨origin, listed, lower, upper⟩ := isDigit_iff.mp digit
  rcases List.mem_cons.mp (show origin ∈ 0x30 :: digitZeros.tail from listed) with rfl | listed
  · -- The digits of ASCII are word characters by their own test.
    have ascii : c.toNat < 0x80 := by omega
    have decimal : c.isDigit = true := by
      simp only [Char.isDigit, ge_iff_le, UInt32.le_iff_toNat_le, Bool.and_eq_true,
        decide_eq_true_eq]
      exact ⟨lower, Nat.le_of_lt_succ upper⟩
    simp [isWord, ascii, Char.isAlphanum, decimal]
  · have beyond := beyondAscii origin listed
    have notAscii : ¬c.toNat < 0x80 := by omega
    -- The range holds all ten digits of the script, and so the character.
    obtain ⟨range, member, within⟩ := exists_range_of_foldl walk origin listed
    simp only [scriptWithin, Bool.and_eq_true, decide_eq_true_eq] at within
    simp only [isWord, notAscii, if_false, inRanges, List.any_eq_true, Bool.and_eq_true,
      decide_eq_true_eq]
    exact ⟨range, member, by omega, by omega⟩

end Formula.Text
