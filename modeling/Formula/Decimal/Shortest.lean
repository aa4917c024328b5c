import Formula.Decimal.Basic

/-! The shortest decimal number that reads back as a given double. -/

namespace Formula.Decimal

/-- The largest number not above a given one whose coefficient lacks so many low digits. -/
def lowerNeighbour (dropped : Nat) (d : Decimal) : Decimal :=
  ⟨d.coefficient / 10 ^ dropped, d.exponent + dropped⟩

/-- The number one unit of the last digit above. -/
def successor (d : Decimal) : Decimal :=
  ⟨d.coefficient + 1, d.exponent⟩

/-- Of the two neighbours the nearer is taken, and of two equally near the one with an even end. -/
def nearerNeighbour (dropped : Nat) (d : Decimal) : Decimal :=
  ⟨nearestQuotient d.coefficient (10 ^ dropped), d.exponent + dropped⟩

/-- A neighbour of a double's exact magnitude that reads back as the double, if there is one. -/
def readingBack? (x : Float) (exact : Decimal) (dropped : Nat) : Option Decimal :=
  let lower := exact.lowerNeighbour dropped
  let upper := lower.successor
  let reads := fun d : Decimal => (d.toFloat false).toBits == x.abs.toBits
  match reads lower, reads upper with
  | true, true => some (exact.nearerNeighbour dropped)
  | true, false => some lower
  | false, true => some upper
  | false, false => none

/-- The number with the fewest digits that reads back as a finite double, nearest to its value. -/
def shortest (x : Float) : Decimal :=
  let exact := magnitude x
  let present := digitCount exact.coefficient
  -- Seventeen digits always suffice; the exact value is what remains to be said otherwise.
  (((List.range' 1 17).findSome? fun count => readingBack? x exact (present - count)).getD
    exact).trimZeros

end Formula.Decimal
