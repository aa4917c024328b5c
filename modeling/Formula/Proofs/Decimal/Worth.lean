import Formula.Decimal.Shortest
import Formula.Proofs.Double.Pattern

/-! Decimal numbers by their worth, which alone decides the nearest double; the shortest of them. -/

namespace Formula.Decimal

/-- What a decimal number is worth. -/
def worth (d : Decimal) : ℚ :=
  d.coefficient * 10 ^ d.exponent

/-- The pattern of the double nearest to a decimal number. -/
def pattern (d : Decimal) : Nat :=
  Double.nearestPattern (d.coefficient * 10 ^ d.exponent.toNat) (10 ^ (-d.exponent).toNat)

/-- A decimal number is worth the ratio that is rounded. -/
theorem worth_eq (d : Decimal) :
    d.worth =
      ((d.coefficient * 10 ^ d.exponent.toNat : ℕ) : ℚ) / (10 ^ (-d.exponent).toNat : ℕ) := by
  -- One of the two natural exponents is zero, and its power is one.
  rw [worth, zpow_eq_div (by norm_num), ← mul_div_assoc]
  push_cast
  rfl

/-- Decimal numbers of the same worth have the same nearest double. -/
theorem pattern_congr {d e : Decimal} (same : d.worth = e.worth) : d.pattern = e.pattern := by
  -- The ratios that are rounded are equal.
  rw [worth_eq, worth_eq, div_eq_div_iff (by positivity) (by positivity)] at same
  exact Double.nearestPattern_congr (by positivity) (by positivity) (by exact_mod_cast same)

/-- No decimal number is converted to more than infinity. -/
theorem pattern_le (d : Decimal) : d.pattern ≤ Double.infinityPattern :=
  -- No ratio has a greater pattern.
  Double.nearestPattern_le _ _

/-- A power of ten is above the power of two with three times its exponent. -/
theorem two_pow_le (places : Nat) : 2 ^ (3 * places) ≤ 10 ^ places := by
  -- Eight is below ten, and so are their powers.
  rw [Nat.pow_mul]
  exact Nat.pow_le_pow_left (by decide) places

/-- A decimal number with more than four hundred zeros is beyond all doubles. -/
theorem pattern_of_large {d : Decimal} (nonzero : d.coefficient ≠ 0) (large : 400 < d.exponent) :
    d.pattern = Double.infinityPattern := by
  -- The coefficient is at least one, and a power of ten exceeds one of two.
  have places : (-d.exponent).toNat = 0 := by omega
  have high : 1025 ≤ 3 * d.exponent.toNat := by omega
  apply Double.nearestPattern_of_large (by positivity) high
  rw [places, pow_zero, Nat.one_mul]
  calc 2 ^ (3 * d.exponent.toNat) ≤ 10 ^ d.exponent.toNat := two_pow_le _
    _ ≤ d.coefficient * 10 ^ d.exponent.toNat := Nat.le_mul_of_pos_left _ (by omega)

/-- A decimal number with so many digits after its point is far below all doubles. -/
theorem pattern_of_small {d : Decimal} (negative : d.exponent < 0)
    (small : d.coefficient.log2 + 1100 < 3 * d.exponent.natAbs) : d.pattern = 0 := by
  -- There are more places after the point than the coefficient has digits to fill.
  have places : (-d.exponent).toNat = d.exponent.natAbs := by omega
  have whole : d.exponent.toNat = 0 := by omega
  have least : (-Double.leastExponent).toNat = 1074 := rfl
  apply Double.nearestPattern_of_small (by positivity)
  generalize (-Double.leastExponent).toNat = shift at least ⊢
  rw [places, whole, pow_zero, Nat.mul_one]
  calc 2 * (d.coefficient * 2 ^ shift) ≤ 2 * (2 ^ (d.coefficient.log2 + 1) * 2 ^ shift) := by
        gcongr
        exact Nat.le_of_lt Nat.lt_log2_self
    _ = 2 ^ (d.coefficient.log2 + 2 + shift) := by ring
    _ ≤ 2 ^ (3 * d.exponent.natAbs) := Nat.pow_le_pow_right (by decide) (by omega)
    _ ≤ 10 ^ d.exponent.natAbs := two_pow_le _

/-- A decimal number is converted to the double with the nearest pattern, however large it is. -/
theorem toFloat_eq (negative : Bool) (d : Decimal) :
    d.toFloat negative = Double.ofPattern negative d.pattern := by
  -- The shortcuts for extreme numbers come to the same as the ratio does.
  unfold toFloat
  split_ifs with zero large small
  · simp [pattern, zero, Double.nearestPattern]
  · rw [pattern_of_large zero large]
  · rw [pattern_of_small small.1 small.2]
  · rfl

/-- Two ways of writing the exact magnitude of a double are worth the same. -/
theorem worth_magnitude (x : Float) :
    (magnitude x).worth = Double.significand x * 2 ^ Double.exponent x := by
  -- A negative power of two is a power of five over one of ten.
  simp only [magnitude]
  split_ifs with whole
  · have place : (Double.exponent x).toNat = Double.exponent x := Int.toNat_of_nonneg whole
    rw [worth, zpow_zero, mul_one, ← place, zpow_natCast]
    push_cast
    rfl
  · have place : (-(Double.exponent x)).toNat = -Double.exponent x := by omega
    generalize (-(Double.exponent x)).toNat = places at place ⊢
    have exponent : Double.exponent x = -(places : ℤ) := by omega
    have ten : (10 : ℚ) ^ places = 2 ^ places * 5 ^ places := by
      rw [← mul_pow]
      norm_num
    rw [worth, exponent, zpow_neg, zpow_neg, zpow_natCast, zpow_natCast, ten]
    push_cast
    field_simp

/-- The exact magnitude of a finite double has the pattern of the double. -/
theorem pattern_magnitude {x : Float} (finite : x.isFinite = true) :
    (magnitude x).pattern = Double.pattern x := by
  -- The magnitude is the significand at its exponent, which is canonical.
  have value := worth_magnitude x
  rw [worth_eq] at value
  rw [pattern, Double.nearestPattern_canonical (Double.canonical_significand x) (by positivity)
    (by exact_mod_cast value), Double.pattern_eq]
  exact Nat.min_eq_left (Nat.le_of_lt (Double.pattern_lt finite))

/-- Zeros at the end of a coefficient are worth nothing. -/
theorem worth_trimZeros (d : Decimal) : d.trimZeros.worth = d.worth := by
  -- Each zero that is dropped is made up for by the exponent.
  fun_induction trimZeros d with
  | case1 d ends ih =>
    have whole : d.coefficient = d.coefficient / 10 * 10 := by omega
    rw [ih, worth, worth, zpow_add_one₀ (by norm_num), mul_comm _ (10 : ℚ), ← mul_assoc]
    conv_rhs => rw [whole]
    push_cast
    rfl
  | case2 d ends => rfl

/-- A decimal number that reads back as a double has the pattern of the double. -/
theorem pattern_of_reads {x : Float} (finite : x.isFinite = true) {d : Decimal}
    (reads : ((d.toFloat false).toBits == x.abs.toBits) = true) :
    d.pattern = Double.pattern x := by
  -- Both doubles are without a sign, so that their bits are their patterns.
  have bits := congrArg UInt64.toNat (beq_iff_eq.mp reads)
  rw [toFloat_eq, Double.abs_eq finite,
    Double.toNat_toBits_ofPattern false (Nat.le_of_lt (Double.pattern_lt finite)),
    Double.toNat_toBits_ofPattern false (pattern_le d)] at bits
  rwa [if_neg Bool.false_ne_true, if_neg Bool.false_ne_true] at bits

/-- The nearer of the two neighbours is one of them. -/
theorem nearerNeighbour_eq (dropped : Nat) (d : Decimal) :
    d.nearerNeighbour dropped = d.lowerNeighbour dropped ∨
      d.nearerNeighbour dropped = (d.lowerNeighbour dropped).successor := by
  -- A quotient is rounded to its whole part or to the next number.
  have lower := nearestQuotient_le d.coefficient (10 ^ dropped)
  have upper := le_nearestQuotient d.coefficient (10 ^ dropped)
  simp only [nearerNeighbour, lowerNeighbour, successor, Decimal.mk.injEq, and_true]
  omega

/-- What is found to read back has the pattern of the double. -/
theorem pattern_of_readingBack? {x : Float} (finite : x.isFinite = true) {exact d : Decimal}
    {dropped : Nat} (found : readingBack? x exact dropped = some d) :
    d.pattern = Double.pattern x := by
  -- Only neighbours are taken that have been tried.
  simp only [readingBack?] at found
  split at found
  · next low high =>
    cases found
    rcases nearerNeighbour_eq dropped exact with same | same
    · rw [same]
      exact pattern_of_reads finite low
    · rw [same]
      exact pattern_of_reads finite high
  · next low _ =>
    cases found
    exact pattern_of_reads finite low
  · next _ high =>
    cases found
    exact pattern_of_reads finite high
  · cases found

/-- The shortest decimal number of a finite double reads back as the double. -/
theorem toFloat_shortest {x : Float} (finite : x.isFinite = true) :
    (shortest x).toFloat (Double.isNegative x) = x := by
  have bits : (shortest x).pattern = Double.pattern x := by
    rw [shortest, pattern_congr (worth_trimZeros _)]
    -- Either some count of digits suffices, or the exact magnitude is taken.
    cases found : (List.range' 1 17).findSome? fun count =>
      readingBack? x (magnitude x) (digitCount (magnitude x).coefficient - count) with
    | none => exact pattern_magnitude finite
    | some d =>
      obtain ⟨count, -, reads⟩ := List.exists_of_findSome?_eq_some found
      exact pattern_of_readingBack? finite reads
  rw [toFloat_eq, bits, Double.ofPattern_pattern]

end Formula.Decimal
