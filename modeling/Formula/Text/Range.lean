/-! Sets of characters written as closed intervals of code points. -/

namespace Formula.Text

/-- A character lies in a table when one of the closed intervals holds its code point. -/
def inRanges (ranges : List (Nat × Nat)) (c : Char) : Bool :=
  ranges.any fun range => range.1 ≤ c.toNat && c.toNat ≤ range.2

end Formula.Text
