import Formula.Decimal.Rounding
import Formula.Proofs.Decimal.Worth
import Formula.Proofs.Double.Value

/-! Rounding to decimal places: to the nearest decimal number, then to the nearest double. -/

namespace Formula

namespace Double

open Float.Model Float.Model.UnpackedFloat

/-- The sign that a flag says. -/
def signOf (negative : Bool) : Sign :=
  if negative then .negative else .positive

/-- A double that is made of a sign and a canonical significand has these as its parts. -/
theorem ofPattern_canonical {mantissa : Nat} {exponent : Int} (negative : Bool)
    (canonical : Canonical mantissa exponent) (bounded : exponent ≤ 971) :
    let x := ofPattern negative ((exponent - leastExponent).toNat * 2 ^ 52 + mantissa)
    x.isFinite = true ∧ value x = signed (signOf negative) (mantissa * 2 ^ exponent) := by
  -- The pattern is below that of infinity, so that it is kept in the bits.
  intro x
  obtain ⟨narrow, least, full⟩ := canonical
  set bits := (exponent - leastExponent).toNat * 2 ^ 52 + mantissa with written
  have few : bits ≤ infinityPattern := by
    unfold leastExponent at *
    unfold infinityPattern
    omega
  have word : x.toBits.toNat = if negative then 2 ^ 63 + bits else bits :=
    toNat_toBits_ofPattern negative few
  have below : bits < 2 ^ 63 := by
    unfold infinityPattern at few
    omega
  -- The sign is above the pattern, which holds scale and fraction.
  have side : sign x = signOf negative := by
    unfold sign signOf isNegative
    rw [word]
    cases negative
    · simp; omega
    · simp
  have scale : scaleBits x = bits / 2 ^ 52 % 2 ^ 11 := by
    rw [scaleBits, word]
    split_ifs <;> omega
  have fraction : fractionBits x = bits % 2 ^ 52 := by
    rw [fractionBits, word]
    split_ifs <;> omega
  have finite : x.isFinite = true := by
    rw [isFinite_iff, scale]
    unfold leastExponent at *
    omega
  have parts : significand x = mantissa ∧ Double.exponent x = exponent := by
    unfold significand Double.exponent
    rw [scale, fraction]
    unfold leastExponent at *
    split_ifs <;> omega
  exact ⟨finite, by rw [value_eq finite, side, parts.1, parts.2]⟩

/-- The pattern of infinity is that of a double that is not finite. -/
theorem isFinite_infinityPattern (negative : Bool) :
    (ofPattern negative infinityPattern).isFinite = false := by
  -- Its scale is the greatest.
  cases negative <;> rfl

/-- The double that is made of a rounded significand at its place, which a carry may change. -/
theorem ofPattern_rounded {rounded : Nat} {place : Int} (negative : Bool)
    (least : leastExponent ≤ place) (narrow : rounded ≤ 2 ^ 53)
    (full : place = leastExponent ∨ 2 ^ 52 ≤ rounded) :
    let x := ofPattern negative
      (min ((place - leastExponent).toNat * 2 ^ 52 + rounded) infinityPattern)
    if (rounded * 2 ^ place : ℚ) < ceiling then
      x.isFinite = true ∧ value x = signed (signOf negative) (rounded * 2 ^ place)
    else x = ofPattern negative infinityPattern := by
  -- A carry makes the significand as short as the next scale allows.
  obtain ⟨mantissa, exponent, canonical, worth, pattern⟩ :
      ∃ (mantissa : Nat) (exponent : Int), Canonical mantissa exponent ∧
        (rounded * 2 ^ place : ℚ) = mantissa * 2 ^ exponent ∧
        (place - leastExponent).toNat * 2 ^ 52 + rounded =
          (exponent - leastExponent).toNat * 2 ^ 52 + mantissa := by
    rcases Nat.lt_or_eq_of_le narrow with short | carry
    · exact ⟨rounded, place, ⟨short, least, by tauto⟩, rfl, rfl⟩
    · refine ⟨2 ^ 52, place + 1, ⟨by norm_num, by omega, .inl le_rfl⟩, ?_, by omega⟩
      rw [carry, zpow_add_one₀ two_ne_zero]
      push_cast
      ring
  intro x
  rw [worth]
  simp only [canonical_lt_iff canonical]
  split_ifs with bounded
  · have few : (exponent - leastExponent).toNat * 2 ^ 52 + mantissa ≤ infinityPattern := by
      have narrow := canonical.narrow
      unfold leastExponent infinityPattern
      omega
    have same : x = ofPattern negative ((exponent - leastExponent).toNat * 2 ^ 52 + mantissa) := by
      rw [← Nat.min_eq_left few, ← pattern]
    rw [same]
    exact ofPattern_canonical negative canonical bounded
  · have many : infinityPattern ≤ (exponent - leastExponent).toNat * 2 ^ 52 + mantissa := by
      have large := canonical.full
      unfold leastExponent at *
      unfold infinityPattern
      omega
    rw [← Nat.min_eq_right many, ← pattern]

/-- A ratio in units of the place where it is rounded has at most 53 digits before the point. -/
theorem scaled_bounds {numerator denominator : Nat} (some : 0 < numerator)
    (positive : 0 < denominator) :
    let place := roundingExponent numerator denominator
    (numerator / denominator : ℚ) < 2 ^ 53 * 2 ^ place ∧
      (place = leastExponent ∨ 2 ^ 52 * 2 ^ place ≤ (numerator / denominator : ℚ)) := by
  -- The place is chosen so that the leading digit is the last that fits.
  intro place
  have ratio : (0 : ℚ) < numerator / denominator := by positivity
  have leading := leadingPlace_eq some positive
  have lower : (2 : ℚ) ^ leadingPlace numerator denominator ≤ numerator / denominator := by
    rw [leading]
    exact_mod_cast Int.zpow_log_le_self one_lt_two ratio
  have upper : (numerator / denominator : ℚ) < 2 ^ (leadingPlace numerator denominator + 1) := by
    rw [leading]
    exact_mod_cast Int.lt_zpow_succ_log_self one_lt_two (numerator / denominator : ℚ)
  have chosen : place = max (leadingPlace numerator denominator - 52) leastExponent := rfl
  constructor
  · calc (numerator / denominator : ℚ) < 2 ^ (leadingPlace numerator denominator + 1) := upper
      _ ≤ 2 ^ ((53 : ℕ) + place) := zpow_le_zpow_right₀ one_le_two (by omega)
      _ = 2 ^ 53 * 2 ^ place := two_zpow_eq rfl
  · -- Above the least exponent, the leading digit is the first of the 53.
    rcases max_choice (leadingPlace numerator denominator - 52) leastExponent with digits | least
    · refine .inr (lower.trans' (two_zpow_eq ?_).ge)
      omega
    · exact .inl (chosen.trans least)

/-- The whole number that a ratio is rounded to, at the place where it is rounded. -/
def roundedSignificand (numerator denominator : Nat) : Nat :=
  nearestQuotient (numerator * 2 ^ (-roundingExponent numerator denominator).toNat)
    (denominator * 2 ^ (roundingExponent numerator denominator).toNat)

/-- In units of a place, a ratio is a quotient of whole numbers. -/
theorem ratio_eq (numerator denominator : Nat) (place : Int) :
    (numerator / denominator : ℚ) = (numerator * 2 ^ (-place).toNat : ℕ) /
      (denominator * 2 ^ place.toNat : ℕ) * 2 ^ place := by
  -- One of the two powers is one, and the other makes up for the unit.
  rw [zpow_eq_div two_ne_zero]
  push_cast
  field_simp

/-- A ratio is rounded to the nearest number of at most 53 digits. -/
theorem nearest_roundedSignificand {numerator denominator : Nat} (some : 0 < numerator)
    (positive : 0 < denominator) :
    let place := roundingExponent numerator denominator
    let rounded := roundedSignificand numerator denominator
    rounded ≤ 2 ^ 53 ∧ (place = leastExponent ∨ 2 ^ 52 ≤ rounded) ∧
      Nearest (numerator / denominator) (rounded * 2 ^ place) := by
  obtain ⟨below, full⟩ := scaled_bounds some positive
  have least : leastExponent ≤ roundingExponent numerator denominator := le_max_right _ _
  unfold roundedSignificand
  generalize roundingExponent numerator denominator = place at *
  -- In units of the place, the ratio is the quotient that is rounded.
  set top := numerator * 2 ^ (-place).toNat
  set bottom := denominator * 2 ^ place.toNat
  have bottomPositive : 0 < bottom := by positivity
  have unit : (0 : ℚ) < 2 ^ place := by positivity
  have scaled : (numerator / denominator : ℚ) = top / bottom * 2 ^ place :=
    ratio_eq numerator denominator place
  have close := abs_sub_nearestQuotient_le top bottomPositive
  rw [scaled] at below full ⊢
  have narrow : nearestQuotient top bottom ≤ 2 ^ 53 := by
    have ratio := lt_of_mul_lt_mul_right below unit.le
    rw [div_lt_iff₀ (by positivity)] at ratio
    have whole : top / bottom < 2 ^ 53 :=
      (Nat.div_lt_iff_lt_mul bottomPositive).mpr (by exact_mod_cast ratio)
    exact (nearestQuotient_le top bottom).trans whole
  have digits : place = leastExponent ∨ 2 ^ 52 ≤ nearestQuotient top bottom := by
    refine full.imp_right fun full => ?_
    have ratio := le_of_mul_le_mul_right full unit
    rw [le_div_iff₀ (by positivity)] at ratio
    have whole : 2 ^ 52 ≤ top / bottom :=
      (Nat.le_div_iff_mul_le bottomPositive).mpr (by exact_mod_cast ratio)
    exact whole.trans (le_nearestQuotient top bottom)
  refine ⟨narrow, digits, ?_⟩
  rw [← Int.cast_natCast (nearestQuotient top bottom)]
  refine .of_half_unit least (by rw [Nat.abs_cast]; exact_mod_cast narrow) full ?_
  rw [← sub_mul, abs_mul, abs_of_pos unit, Int.cast_natCast]
  calc _ ≤ 1 / 2 * (2 : ℚ) ^ place := by gcongr
    _ = 2 ^ place / 2 := by ring

/-- The double nearest to a ratio is that ratio rounded. -/
theorem rounds_nearest (negative : Bool) (numerator : Nat) {denominator : Nat}
    (positive : 0 < denominator) :
    Rounds (signed (signOf negative) (numerator / denominator))
      (nearest negative numerator denominator) := by
  by_cases zero : numerator = 0
  · -- Zero has its own pattern.
    have canonical : Canonical 0 leastExponent := ⟨by decide, le_rfl, .inr rfl⟩
    have made : nearest negative numerator denominator =
        ofPattern negative ((leastExponent - leastExponent).toNat * 2 ^ 52 + 0) := by
      simp [nearest, nearestPattern, zero]
    obtain ⟨finite, worth⟩ := ofPattern_canonical negative canonical (by decide)
    rw [made, zero, Nat.cast_zero, zero_div]
    rw [Nat.cast_zero, zero_mul] at worth
    refine ⟨_, (Nearest.refl .zero).signed (signOf negative), ?_⟩
    rw [abs_signed, abs_zero, if_pos ceiling_pos]
    exact ⟨finite, worth⟩
  · obtain ⟨narrow, digits, nearest⟩ :=
      nearest_roundedSignificand (Nat.pos_of_ne_zero zero) positive
    have made : Double.nearest negative numerator denominator = ofPattern negative
        (min ((roundingExponent numerator denominator - leastExponent).toNat * 2 ^ 52 +
          roundedSignificand numerator denominator) infinityPattern) := by
      simp only [Double.nearest, nearestPattern, roundedSignificand, zero, if_false]
    have least : leastExponent ≤ roundingExponent numerator denominator := le_max_right _ _
    have outcome := ofPattern_rounded negative least narrow digits
    rw [← made] at outcome
    refine ⟨_, nearest.signed (signOf negative), ?_⟩
    rw [abs_signed, abs_of_nonneg (by positivity)]
    split_ifs at outcome ⊢ with within
    · exact outcome
    · rw [outcome]
      exact isFinite_infinityPattern negative

end Double

namespace Decimal

open Double (Rounds signed signOf value)

/-- A decimal number is converted to the double nearest to its worth. -/
theorem rounds_toFloat (negative : Bool) (d : Decimal) :
    Rounds (signed (signOf negative) d.worth) (d.toFloat negative) := by
  -- Very large and very small numbers are converted alike, though by a shorter way.
  rw [toFloat_eq, worth_eq]
  exact Double.rounds_nearest negative _ (by positivity)

/-- Digits are dropped by rounding a quotient to the nearest whole number. -/
theorem dropDigits_eq (count coefficient : Nat) :
    dropDigits count coefficient = nearestQuotient coefficient (10 ^ count) := by
  unfold dropDigits
  split_ifs with few
  · -- So short a number is below half of the power of ten.
    refine ((nearestQuotient_eq_zero (by positivity)).mpr ?_).symm
    calc 2 * coefficient ≤ 2 * 2 ^ (coefficient.log2 + 1) :=
          Nat.mul_le_mul_left 2 Nat.lt_log2_self.le
      _ = 2 ^ (coefficient.log2 + 2) := (Nat.pow_succ' ..).symm
      _ ≤ 2 ^ count := Nat.pow_le_pow_right (by decide) (by omega)
      _ ≤ 10 ^ count := Nat.pow_le_pow_left (by decide) count
  · rfl

/-- In units of a place after its last one, a decimal number is a quotient of whole numbers. -/
theorem worth_eq_quotient {places : Int} {d : Decimal} (more : d.exponent < -places) :
    d.worth = d.coefficient / (10 ^ (-places - d.exponent).toNat : ℕ) * 10 ^ (-places) := by
  -- The places after the last one divide, which makes the exponent up.
  have split : -places = d.exponent + ((-places - d.exponent).toNat : ℤ) := by omega
  generalize (-places - d.exponent).toNat = count at split ⊢
  rw [worth, split, zpow_add₀ (by norm_num), zpow_natCast]
  push_cast
  field_simp

/-- Rounding to decimal places changes a number by at most half of a unit of the last place. -/
theorem abs_worth_toPlaces_sub_le (places : Int) (d : Decimal) :
    |(d.toPlaces places).worth - d.worth| ≤ 10 ^ (-places) / 2 := by
  -- Without more digits than places, nothing is changed.
  unfold toPlaces
  split_ifs with few
  · rw [sub_self, abs_zero]
    positivity
  · have unit : (0 : ℚ) < 10 ^ (-places) := by positivity
    -- In units of the last place, the number is the quotient that is rounded.
    have close := abs_sub_nearestQuotient_le d.coefficient
      (show 0 < 10 ^ (-places - d.exponent).toNat by positivity)
    rw [abs_sub_comm, worth_eq_quotient (not_le.mp few), worth, dropDigits_eq, ← sub_mul, abs_mul,
      abs_of_pos unit]
    calc _ ≤ 1 / 2 * (10 : ℚ) ^ (-places) := by gcongr
      _ = 10 ^ (-places) / 2 := by ring

variable {x : Float}

/-- A finite double is rounded to the double nearest to a decimal number with its sign. -/
theorem rounds_round (places : Int) (finite : x.isFinite = true) :
    Rounds (signed (Double.sign x) ((magnitude x).toPlaces places).worth)
      (Decimal.round places x) := by
  -- A finite double is rounded as its exact magnitude.
  have rounded := rounds_toFloat (Double.isNegative x) ((magnitude x).toPlaces places)
  rwa [Decimal.round, if_pos finite]

/-- The exact magnitude of a finite double is worth that of its value. -/
theorem worth_magnitude_eq (finite : x.isFinite = true) : (magnitude x).worth = |value x| := by
  -- The exact magnitude has the significand and the exponent of the double.
  rw [Double.value_eq finite, Double.abs_signed, worth_magnitude, abs_of_nonneg (by positivity)]

/-- Rounding to decimal places after the point does not take a finite double beyond all others. -/
theorem isFinite_round {places : Int} (nonneg : 0 ≤ places) (finite : x.isFinite = true) :
    (Decimal.round places x).isFinite = true := by
  have rounds := rounds_round places finite
  by_cases exact : -places ≤ (magnitude x).exponent
  · -- Without digits to drop, the number is the double itself.
    have same : (magnitude x).toPlaces places = magnitude x := if_pos exact
    rw [same, worth_magnitude_eq finite] at rounds
    refine rounds.isFinite (Double.onGrid_value finite).magnitude
      (Double.proper_parts finite).amount_lt ?_
    rw [Double.abs_signed, abs_abs]
  · -- Doubles with digits after the point are not large.
    have fraction : Double.exponent x < 0 := by
      by_contra whole
      refine exact ?_
      rw [magnitude, if_pos (by omega)]
      exact neg_nonpos.mpr nonneg
    have small : |value x| ≤ 2 ^ 53 := by
      rw [← worth_magnitude_eq finite, worth_magnitude]
      have narrow : (Double.significand x : ℚ) ≤ 2 ^ 53 := by
        exact_mod_cast (Double.canonical_significand x).narrow.le
      have unit : (2 : ℚ) ^ Double.exponent x ≤ 1 := zpow_le_one_of_nonpos₀ one_le_two fraction.le
      calc (Double.significand x * 2 ^ Double.exponent x : ℚ) ≤ 2 ^ 53 * 1 := by gcongr
        _ = 2 ^ 53 := mul_one _
    have close := abs_worth_toPlaces_sub_le places (magnitude x)
    rw [worth_magnitude_eq finite] at close
    have unit : (10 : ℚ) ^ (-places) ≤ 1 := zpow_le_one_of_nonpos₀ (by norm_num) (by omega)
    have bound : |((magnitude x).toPlaces places).worth| ≤ 2 ^ (54 : ℤ) := by
      have triangle := abs_sub_abs_le_abs_sub ((magnitude x).toPlaces places).worth |value x|
      rw [abs_abs] at triangle
      norm_num
      linarith
    have inRange : (2 : ℚ) ^ (54 : ℤ) < Double.ceiling := by
      have less : (54 : ℤ) < 1024 := by decide
      exact zpow_lt_zpow_right₀ one_lt_two less
    have onGrid : Double.OnGrid (2 ^ (54 : ℤ)) := .two_zpow (by decide)
    exact rounds.isFinite onGrid inRange ((Double.abs_signed _ _).trans_le bound)

end Decimal

end Formula
