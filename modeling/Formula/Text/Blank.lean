import Formula.Text.Range

/-! Blanks: the characters that may stand anywhere in a formula without a meaning. -/

namespace Formula.Text

/-- The blanks: control blanks and separators, space, and the spaces beyond ASCII. -/
def blankRanges : List (Nat × Nat) :=
  [(0x9, 0xd), (0x1c, 0x20), (0x85, 0x85), (0xa0, 0xa0), (0x1680, 0x1680), (0x2000, 0x200a),
   (0x2028, 0x2029), (0x202f, 0x202f), (0x205f, 0x205f), (0x3000, 0x3000)]

/-- A blank carries no meaning and separates nothing. -/
def isBlank (c : Char) : Bool :=
  inRanges blankRanges c

/-- A blank that may surround a written number: the four ASCII separators are not among them. -/
def isNumberBlank (c : Char) : Bool :=
  isBlank c && !(0x1c ≤ c.toNat && c.toNat ≤ 0x1f)

/-- The characters of a text that carry meaning, in order. -/
def withoutBlanks (text : List Char) : List Char :=
  text.filter fun c => !isBlank c

end Formula.Text
