import Formula.Number

/-! Words: which given numbers fit 64 bits, with a sign or without. -/

namespace Formula.Number

/-- A whole number that fits a 64-bit word with a sign. -/
def signed? : Number → Option Int64
  | whole n => if -2 ^ 63 ≤ n ∧ n < 2 ^ 63 then some (.ofInt n) else none
  | real _ => none

/-- A whole number that fits a 64-bit word without a sign. -/
def unsigned? : Number → Option UInt64
  | whole n => if 0 ≤ n ∧ n < 2 ^ 64 then some (.ofNat n.toNat) else none
  | real _ => none

/-- A word with a sign holds the number, and one without does not. -/
def needsSign (n : Number) : Bool :=
  n.signed?.isSome && n.unsigned?.isNone

/-- A word without a sign holds the number, and one with a sign does not. -/
def needsWidth (n : Number) : Bool :=
  n.unsigned?.isSome && n.signed?.isNone

/-- A whole number that no word holds. -/
def outgrowsWords (n : Number) : Bool :=
  n.whole?.isSome && n.signed?.isNone && n.unsigned?.isNone

end Formula.Number
