import Formula.Whole

/-! Rounding of exact quotients to whole numbers. -/

namespace Formula

/-- The whole number nearest to a quotient, where a half goes to the even neighbour. -/
def nearestQuotient (numerator denominator : Nat) : Nat :=
  let quotient := numerator / denominator
  let twice := 2 * (numerator % denominator)
  if twice < denominator || (twice == denominator && quotient % 2 == 0) then quotient
  else quotient + 1

end Formula
