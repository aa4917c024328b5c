import Formula.Proofs.Double.Packing

/-! Bit patterns of doubles: the nearest one depends on the ratio alone, and stands for a double. -/

namespace Formula

/-- A quotient is rounded alike when both of its parts are multiplied. -/
theorem nearestQuotient_mul {factor : Nat} (positive : 0 < factor) (numerator denominator : Nat) :
    nearestQuotient (factor * numerator) (factor * denominator) =
      nearestQuotient numerator denominator := by
  -- The whole part stays the same, and the rest is compared with a half in the same way.
  have below (rest : Nat) : 2 * (factor * rest) < factor * denominator ↔
      2 * rest < denominator := by
    rw [Nat.mul_left_comm, Nat.mul_lt_mul_left positive]
  have half (rest : Nat) : 2 * (factor * rest) = factor * denominator ↔
      2 * rest = denominator := by
    rw [Nat.mul_left_comm, Nat.mul_right_inj (by omega)]
  simp only [nearestQuotient, Nat.mul_div_mul_left _ _ positive, Nat.mul_mod_mul_left, below,
    Bool.or_eq_true, Bool.and_eq_true, decide_eq_true_eq, beq_iff_eq, half]

/-- A whole quotient is not rounded. -/
theorem nearestQuotient_mul_self {denominator : Nat} (positive : 0 < denominator) (whole : Nat) :
    nearestQuotient (whole * denominator) denominator = whole := by
  -- The division leaves nothing over, so that there is no rest to round.
  simp [nearestQuotient, Nat.mul_div_cancel _ positive, positive]

/-- Equal ratios are rounded to the same whole number. -/
theorem nearestQuotient_congr {a b c d : Nat} (positive : 0 < b) (positiveOther : 0 < d)
    (equal : a * d = c * b) : nearestQuotient a b = nearestQuotient c d := by
  -- Both are brought to the product of their denominators.
  rw [← nearestQuotient_mul positiveOther a b, ← nearestQuotient_mul positive c d,
    Nat.mul_comm d a, equal, Nat.mul_comm c b, Nat.mul_comm d b]

/-- A power with a whole exponent is a ratio of powers with natural ones. -/
theorem zpow_eq_div {base : ℚ} (nonzero : base ≠ 0) (place : ℤ) :
    base ^ place = base ^ place.toNat / base ^ (-place).toNat := by
  -- One of the two natural exponents is zero.
  have split : place = (place.toNat : ℤ) - ((-place).toNat : ℤ) := by omega
  conv_lhs => rw [split, zpow_sub₀ nonzero, zpow_natCast, zpow_natCast]

namespace Double

open Float.Model Float.Model.UnpackedFloat

/-- A ratio is below a power of two as the comparison with scaled parts says. -/
theorem lt_two_zpow_iff {numerator denominator : Nat} (positive : 0 < denominator) (place : ℤ) :
    (numerator / denominator : ℚ) < 2 ^ place ↔
      numerator * 2 ^ (-place).toNat < denominator * 2 ^ place.toNat := by
  -- The comparison is multiplied by the denominator and by the power that divides.
  have denominatorPositive : (0 : ℚ) < denominator := by exact_mod_cast positive
  have powerPositive : (0 : ℚ) < 2 ^ (-place).toNat := by positivity
  rw [zpow_eq_div two_ne_zero, div_lt_div_iff₀ denominatorPositive powerPositive,
    mul_comm (2 ^ place.toNat : ℚ)]
  exact_mod_cast Iff.rfl

/-- The leading binary place of a number is the one whose power of two it reaches. -/
theorem log_eq {ratio : ℚ} {place : ℤ} (lower : 2 ^ place ≤ ratio)
    (upper : ratio < 2 ^ (place + 1)) : Int.log 2 ratio = place := by
  -- A power of two is reached exactly up to the logarithm.
  have positive : 0 < ratio := lt_of_lt_of_le (by positivity) lower
  have reached : place ≤ Int.log 2 ratio :=
    (Int.zpow_le_iff_le_log (by decide) positive).mp (by exact_mod_cast lower)
  have missed : Int.log 2 ratio < place + 1 :=
    (Int.lt_zpow_iff_log_lt (by decide) positive).mp (by exact_mod_cast upper)
  omega

/-- The leading place of a ratio is the logarithm of its value. -/
theorem leadingPlace_eq {numerator denominator : Nat} (positive : 0 < numerator)
    (positiveOther : 0 < denominator) :
    leadingPlace numerator denominator = Int.log 2 (numerator / denominator : ℚ) := by
  -- The leading places of both parts leave two possible places, and a comparison decides.
  have nonzero : numerator ≠ 0 := by omega
  have nonzeroOther : denominator ≠ 0 := by omega
  set place : ℤ := numerator.log2 - denominator.log2 with difference
  have scale : (2 : ℚ) ^ place = 2 ^ numerator.log2 / 2 ^ denominator.log2 := by
    rw [difference, zpow_sub₀ two_ne_zero, zpow_natCast, zpow_natCast]
  have numeratorLower : (2 : ℚ) ^ numerator.log2 ≤ numerator := by
    exact_mod_cast Nat.log2_self_le nonzero
  have numeratorUpper : (numerator : ℚ) < 2 ^ numerator.log2 * 2 := by
    exact_mod_cast Nat.lt_log2_self
  have denominatorLower : (2 : ℚ) ^ denominator.log2 ≤ denominator := by
    exact_mod_cast Nat.log2_self_le nonzeroOther
  have denominatorUpper : (denominator : ℚ) < 2 ^ denominator.log2 * 2 := by
    exact_mod_cast Nat.lt_log2_self
  have denominatorPositive : (0 : ℚ) < denominator := by exact_mod_cast positiveOther
  have above : (2 : ℚ) ^ (place - 1) ≤ numerator / denominator := by
    rw [zpow_sub_one₀ two_ne_zero, scale, ← div_eq_mul_inv, div_div]
    gcongr
  have below : (numerator / denominator : ℚ) < 2 ^ (place + 1) := by
    rw [zpow_add_one₀ two_ne_zero, scale, div_mul_eq_mul_div]
    gcongr
  have decided := @lt_two_zpow_iff numerator denominator positiveOther place
  simp only [leadingPlace, ← difference, ← decided]
  split_ifs with short
  · exact (log_eq above (by simpa using short)).symm
  · exact (log_eq (not_lt.mp short) below).symm

/-- Ratios of the same value have the same nearest pattern. -/
theorem nearestPattern_congr {a b c d : Nat} (positive : 0 < b) (positiveOther : 0 < d)
    (equal : a * d = c * b) : nearestPattern a b = nearestPattern c d := by
  -- Both vanish together, and otherwise are rounded alike at the same exponent.
  by_cases zero : a = 0
  · have zeroOther : c = 0 := by
      rw [zero, Nat.zero_mul, eq_comm, Nat.mul_eq_zero] at equal
      omega
    simp [nearestPattern, zero, zeroOther]
  · have nonzero : c ≠ 0 := by
      rintro rfl
      rw [Nat.zero_mul, Nat.mul_eq_zero] at equal
      omega
    have ratio : (a / b : ℚ) = c / d := by
      rw [div_eq_div_iff (by positivity) (by positivity)]
      exact_mod_cast equal
    have place : roundingExponent a b = roundingExponent c d := by
      rw [roundingExponent, roundingExponent, leadingPlace_eq (by omega) positive,
        leadingPlace_eq (by omega) positiveOther, ratio]
    have rounded (first second : Nat) :
        nearestQuotient (a * 2 ^ first) (b * 2 ^ second) =
          nearestQuotient (c * 2 ^ first) (d * 2 ^ second) := by
      refine nearestQuotient_congr (by positivity) (by positivity) ?_
      calc a * 2 ^ first * (d * 2 ^ second) = a * d * (2 ^ first * 2 ^ second) := by ring
        _ = c * 2 ^ first * (b * 2 ^ second) := by rw [equal]; ring
    simp only [nearestPattern, zero, nonzero, if_false, place, rounded]

/-- No nearest pattern is above that of infinity. -/
theorem nearestPattern_le (numerator denominator : Nat) :
    nearestPattern numerator denominator ≤ infinityPattern := by
  -- The pattern is cut off there.
  unfold nearestPattern
  split
  · exact Nat.zero_le _
  · exact Nat.min_le_right ..

/-- A ratio that a significand and an exponent write exactly has their pattern. -/
theorem nearestPattern_canonical {mantissa : Nat} {exponent : Int}
    (canonical : Canonical mantissa exponent) {numerator denominator : Nat}
    (positive : 0 < denominator)
    (value : (numerator / denominator : ℚ) = mantissa * 2 ^ exponent) :
    nearestPattern numerator denominator =
      min ((exponent - leastExponent).toNat * 2 ^ 52 + mantissa) infinityPattern := by
  obtain ⟨narrow, bounded, full⟩ := canonical
  have exact : numerator * 2 ^ (-exponent).toNat =
      mantissa * (denominator * 2 ^ exponent.toNat) := by
    have denominatorPositive : (0 : ℚ) < denominator := by exact_mod_cast positive
    rw [zpow_eq_div two_ne_zero, ← mul_div_assoc,
      div_eq_div_iff (by positivity) (by positivity)] at value
    have cleared : numerator * 2 ^ (-exponent).toNat =
        mantissa * 2 ^ exponent.toNat * denominator := by exact_mod_cast value
    rw [cleared, Nat.mul_comm denominator, Nat.mul_assoc]
  -- Both sides of the equation vanish together.
  by_cases zero : mantissa = 0
  · -- Zero has only the least exponent.
    have nothing : numerator = 0 := by
      rw [zero, Nat.zero_mul, Nat.mul_eq_zero] at exact
      exact exact.resolve_right (by positivity)
    have least : exponent = leastExponent := full.resolve_left (by omega)
    simp [nearestPattern, nothing, zero, least]
  · have nonzero : 0 < numerator := by
      refine Nat.pos_of_ne_zero fun nothing => ?_
      rw [nothing, Nat.zero_mul, eq_comm, Nat.mul_eq_zero] at exact
      exact exact.elim zero (by positivity)
    -- The leading place is that of the significand, so that it is rounded where it ends.
    have place : Int.log 2 (numerator / denominator : ℚ) = mantissa.log2 + exponent := by
      have lower : (2 : ℚ) ^ mantissa.log2 ≤ mantissa := by
        exact_mod_cast Nat.log2_self_le zero
      have upper : (mantissa : ℚ) < 2 ^ (mantissa.log2 + 1) := by
        exact_mod_cast Nat.lt_log2_self
      refine log_eq ?_ ?_
      · rw [value, zpow_add₀ two_ne_zero, zpow_natCast]
        gcongr
      · rw [value, add_right_comm, zpow_add₀ two_ne_zero]
        gcongr
        exact_mod_cast upper
    have short : mantissa.log2 < 53 := (Nat.log2_lt zero).mpr narrow
    have rounded : roundingExponent numerator denominator = exponent := by
      rw [roundingExponent, leadingPlace_eq nonzero positive, place]
      rcases full with full | least
      · have long : 52 ≤ mantissa.log2 := (Nat.le_log2 zero).mpr full
        omega
      · omega
    simp only [nearestPattern, Nat.ne_of_gt nonzero, if_false, rounded, exact]
    rw [nearestQuotient_mul_self (by positivity)]

/-- A ratio far beyond the largest double has the pattern of infinity. -/
theorem nearestPattern_of_large {numerator denominator place : Nat} (positive : 0 < denominator)
    (high : 1025 ≤ place) (large : denominator * 2 ^ place ≤ numerator) :
    nearestPattern numerator denominator = infinityPattern := by
  -- The scale alone is above that of every finite double.
  have nonzero : 0 < numerator := Nat.lt_of_lt_of_le (by positivity) large
  have reached : (place : ℤ) ≤ leadingPlace numerator denominator := by
    rw [leadingPlace_eq nonzero positive]
    apply (Int.zpow_le_iff_le_log (by decide) (by positivity)).mp
    rw [zpow_natCast, le_div_iff₀ (by positivity), mul_comm]
    exact_mod_cast large
  have scale : 2047 ≤ (roundingExponent numerator denominator - leastExponent).toNat := by
    unfold roundingExponent leastExponent
    omega
  simp only [nearestPattern, Nat.ne_of_gt nonzero, if_false]
  apply Nat.min_eq_right
  apply Nat.le_trans _ (Nat.le_add_right ..)
  exact Nat.mul_le_mul_right _ scale

/-- A ratio of at most half of the least positive double has the pattern of zero. -/
theorem nearestPattern_of_small {numerator denominator : Nat} (positive : 0 < denominator)
    (small : 2 * (numerator * 2 ^ (-leastExponent).toNat) ≤ denominator) :
    nearestPattern numerator denominator = 0 := by
  -- At the least exponent, at most a half of a unit is rounded to nothing.
  by_cases zero : numerator = 0
  · simp [nearestPattern, zero]
  · have least : leastExponent.toNat = 0 := rfl
    have ratio : (numerator / denominator : ℚ) < 2 ^ leastExponent := by
      rw [lt_two_zpow_iff positive, least]
      have some : 0 < numerator * 2 ^ (-leastExponent).toNat := by positivity
      omega
    have ratioPositive : (0 : ℚ) < numerator / denominator := by positivity
    have low : leadingPlace numerator denominator < leastExponent := by
      rw [leadingPlace_eq (by omega) positive]
      exact (Int.lt_zpow_iff_log_lt (b := 2) (by decide) ratioPositive).mp
        (by exact_mod_cast ratio)
    have place : roundingExponent numerator denominator = leastExponent := by
      unfold roundingExponent
      omega
    have vanished : nearestQuotient (numerator * 2 ^ (-leastExponent).toNat) denominator = 0 :=
      (nearestQuotient_eq_zero positive).mpr small
    simp [nearestPattern, zero, place, least, vanished]

/-- The bits of a magnitude: its scale above its fraction. -/
def pattern (x : Float) : Nat :=
  scaleBits x * 2 ^ 52 + fractionBits x

/-- The bits of a double are its pattern below its sign. -/
theorem toNat_toBits (x : Float) :
    x.toBits.toNat = if isNegative x then 2 ^ 63 + pattern x else pattern x := by
  -- Scale and fraction fill all places below the sign.
  have below : x.toBits.toNat < 2 ^ 64 := x.toBits.toNat_lt
  simp only [isNegative, pattern, scaleBits, fractionBits, decide_eq_true_eq]
  split_ifs <;> omega

/-- A double is made of its sign and its pattern. -/
theorem ofPattern_pattern (x : Float) : ofPattern (isNegative x) (pattern x) = x := by
  -- Sign and pattern are all the bits that there are.
  rw [ofPattern, ← toNat_toBits, UInt64.ofNat_toNat, Float.ofBits_toBits]

/-- Up to that of infinity, every pattern is that of the double that it makes. -/
theorem toNat_toBits_ofPattern (negative : Bool) {bits : Nat} (bounded : bits ≤ infinityPattern) :
    (ofPattern negative bits).toBits.toNat = if negative then 2 ^ 63 + bits else bits := by
  -- Beyond infinity are only the bits of what is not a number, and those alone are changed.
  set word := UInt64.ofNat (if negative then 2 ^ 63 + bits else bits) with written
  have kept : word.toNat = if negative then 2 ^ 63 + bits else bits := by
    rw [written, UInt64.toNat_ofNat', Nat.mod_eq_of_lt]
    unfold infinityPattern at bounded
    split <;> omega
  have scale : (@unpackExponent .binary64 word.toBitVec).toNat = word.toNat / 2 ^ 52 % 2 ^ 11 := by
    simp [unpackExponent, Nat.shiftRight_eq_div_pow]
  have fraction : (@unpackMantissa .binary64 word.toBitVec).toNat = word.toNat % 2 ^ 52 := by
    simp [unpackMantissa]
  have number : ¬(@isNaNBits .binary64 word.toBitVec) = true := by
    simp only [isNaNBits, decide_eq_true_eq, not_and, not_not]
    intro greatest
    have top : word.toNat / 2 ^ 52 % 2 ^ 11 = 2047 := by
      rw [← scale, greatest]
      rfl
    have empty : word.toNat % 2 ^ 52 = 0 := by
      unfold infinityPattern at bounded
      split at kept <;> omega
    rw [← BitVec.toNat_inj, fraction, empty]
    rfl
  have packed := @pack_unpack .binary64 word.toBitVec
  rw [if_neg number] at packed
  rw [← kept]
  exact congrArg BitVec.toNat packed

/-- A double has the sign that it is made with. -/
theorem isNegative_ofPattern (negative : Bool) {bits : Nat} (bounded : bits ≤ infinityPattern) :
    isNegative (ofPattern negative bits) = negative := by
  -- No pattern reaches the place of the sign.
  have below : bits < 2 ^ 63 := lt_of_le_of_lt bounded (by decide)
  rw [isNegative, toNat_toBits_ofPattern negative bounded]
  cases negative
  · simpa using below
  · simp

/-- A double is finite if its scale is not the greatest. -/
theorem isFinite_iff (x : Float) : x.isFinite = true ↔ scaleBits x ≠ 2047 := by
  -- What is infinite or undefined has the greatest scale.
  change x.toModel.unpack.isFinite = true ↔ _
  rw [unpack_eq]
  split_ifs <;> simp_all [UnpackedFloat.isFinite]

/-- A finite double is a number. -/
theorem isNaN_of_isFinite {x : Float} (finite : x.isFinite = true) : x.isNaN = false := by
  -- The undefined kind is not a finite one.
  change x.toModel.unpack.isFinite = true at finite
  change x.toModel.unpack.isNaN = false
  cases unpacked : x.toModel.unpack with
  | notANumber =>
    rw [unpacked] at finite
    cases finite
  | infinity sign | zero sign | finite sign => rfl

/-- The pattern of a finite double is below that of infinity. -/
theorem pattern_lt {x : Float} (finite : x.isFinite = true) : pattern x < infinityPattern := by
  -- The scale is below the greatest one, which is that of infinity.
  have scale : scaleBits x < 2 ^ 11 := Nat.mod_lt _ (by decide)
  have fraction : fractionBits x < 2 ^ 52 := Nat.mod_lt _ (by decide)
  have notGreatest := (isFinite_iff x).mp finite
  unfold pattern infinityPattern
  omega

/-- The significand and the exponent of a finite double make up its pattern. -/
theorem pattern_eq (x : Float) :
    (exponent x - leastExponent).toNat * 2 ^ 52 + significand x = pattern x := by
  -- At the least scale there is no leading digit, and above it the digit counts for one scale.
  rw [exponent, significand, pattern]
  by_cases least : scaleBits x = 0
  · rw [if_pos least, if_pos least, least, Int.sub_self]
    rfl
  · rw [if_neg least, if_neg least]
    unfold leastExponent
    omega

/-- The absolute value keeps the pattern and drops the sign. -/
theorem abs_eq {x : Float} (finite : x.isFinite = true) : x.abs = ofPattern false (pattern x) := by
  -- Both are unpacked to the same parts with a positive sign.
  set y := ofPattern false (pattern x) with made
  have bits : y.toBits.toNat = pattern x := by
    rw [made, toNat_toBits_ofPattern false (Nat.le_of_lt (pattern_lt finite))]
    rfl
  have scaleBound : scaleBits x < 2 ^ 11 := Nat.mod_lt _ (by decide)
  have fractionBound : fractionBits x < 2 ^ 52 := Nat.mod_lt _ (by decide)
  have scale : scaleBits y = scaleBits x := by
    change y.toBits.toNat / 2 ^ 52 % 2 ^ 11 = _
    rw [bits, pattern]
    omega
  have fraction : fractionBits y = fractionBits x := by
    change y.toBits.toNat % 2 ^ 52 = _
    rw [bits, pattern]
    omega
  have positive : sign y = .positive := by
    have below : ¬2 ^ 63 ≤ y.toBits.toNat := by
      rw [bits, pattern]
      omega
    simp [sign, isNegative, below]
  have parts : x.toModel.unpack.abs = y.toModel.unpack := by
    rw [unpack_eq, unpack_eq]
    simp only [significand, exponent, scale, fraction, positive]
    split_ifs <;> rfl
  change Float.ofModel (.pack x.toModel.unpack.abs) = y
  rw [parts]
  exact Float.ofBits_toBits y

end Double

end Formula
