import Formula.Proofs.Decimal.Rounding
import Formula.Proofs.Double.Order

/-! Decimal numbers halfway between doubles: the even one is taken, and at the end infinity. -/

namespace Formula

/-- A quotient halfway between two whole numbers is rounded to the even one. -/
theorem nearestQuotient_even {numerator denominator : Nat} (positive : 0 < denominator)
    (tie : 2 * numerator = (2 * nearestQuotient numerator denominator + 1) * denominator ∨
      2 * numerator + denominator = 2 * nearestQuotient numerator denominator * denominator) :
    nearestQuotient numerator denominator % 2 = 0 := by
  -- The rest is half of the denominator, and then the whole part decides.
  have split := Nat.div_add_mod numerator denominator
  have below : numerator % denominator < denominator := Nat.mod_lt _ positive
  unfold nearestQuotient at tie ⊢
  set whole := numerator / denominator
  set rest := numerator % denominator
  have down : (2 * whole + 1) * denominator = 2 * (denominator * whole) + denominator := by ring
  have same : 2 * whole * denominator = 2 * (denominator * whole) := by ring
  have up : (2 * (whole + 1) + 1) * denominator = 2 * (denominator * whole) + 3 * denominator := by
    ring
  have next : 2 * (whole + 1) * denominator = 2 * (denominator * whole) + 2 * denominator := by
    ring
  generalize denominator * whole = product at *
  simp only [Bool.or_eq_true, Bool.and_eq_true, decide_eq_true_eq, beq_iff_eq] at tie ⊢
  split_ifs at tie ⊢ <;> omega

/-- A quotient is less than a half away from an odd number to which it is rounded. -/
theorem abs_sub_nearestQuotient_lt {numerator denominator : Nat} (positive : 0 < denominator)
    (odd : nearestQuotient numerator denominator % 2 = 1) :
    |(numerator / denominator : ℚ) - nearestQuotient numerator denominator| < 1 / 2 := by
  refine lt_of_le_of_ne (abs_sub_nearestQuotient_le numerator positive) fun half => ?_
  -- Exactly a half would be rounded to an even number.
  have divisor : (denominator : ℚ) ≠ 0 := by positivity
  have even := @nearestQuotient_even numerator denominator positive
  generalize nearestQuotient numerator denominator = rounded at *
  have parity : rounded % 2 = 0 := by
    apply even
    rcases abs_eq (by norm_num) |>.mp half with above | under
    · left
      field_simp at above
      have cleared : (2 * numerator : ℚ) = (2 * rounded + 1) * denominator := by linarith
      exact_mod_cast cleared
    · right
      field_simp at under
      have cleared : (2 * numerator + denominator : ℚ) = 2 * rounded * denominator := by linarith
      exact_mod_cast cleared
  omega

namespace Double

/-- A number is rounded to a significand at a place, which is even where another one is as near. -/
structure RoundedEven (number : ℚ) (mantissa : Nat) (place : Int) : Prop where
  least : leastExponent ≤ place
  narrow : mantissa ≤ 2 ^ 53
  full : place = leastExponent ∨ 2 ^ 52 ≤ mantissa
  nearest : Nearest number (mantissa * 2 ^ place)
  even : ∀ other, OnGrid other → other ≠ mantissa * 2 ^ place →
    |number - other| ≤ |number - mantissa * 2 ^ place| → mantissa % 2 = 0

/-- Zero is rounded to zero. -/
theorem RoundedEven.zero : RoundedEven 0 0 leastExponent where
  least := le_rfl
  narrow := Nat.zero_le _
  full := .inl rfl
  nearest := by
    rw [Nat.cast_zero, zero_mul]
    exact .refl .zero
  even := fun _ _ _ _ => rfl

/-- A ratio is rounded to a significand that is even where another one is as near. -/
theorem roundedEven_ratio {numerator denominator : Nat} (some : 0 < numerator)
    (positive : 0 < denominator) :
    RoundedEven (numerator / denominator) (roundedSignificand numerator denominator)
      (roundingExponent numerator denominator) := by
  -- The rounded quotient is nearest, and no other number is as near if it is odd.
  obtain ⟨narrow, digits, nearest⟩ := nearest_roundedSignificand some positive
  refine ⟨le_max_right _ _, narrow, digits, nearest, fun other onGrid distinct near => ?_⟩
  by_contra odd
  refine distinct ?_
  -- In units of the place, the ratio is less than a half away from an odd significand.
  obtain ⟨-, full⟩ := scaled_bounds some positive
  have close : |(numerator / denominator : ℚ) - roundedSignificand numerator denominator *
      2 ^ roundingExponent numerator denominator| <
        2 ^ roundingExponent numerator denominator / 2 := by
    have scaled := ratio_eq numerator denominator (roundingExponent numerator denominator)
    have unit : (0 : ℚ) < 2 ^ roundingExponent numerator denominator := by positivity
    have half := abs_sub_nearestQuotient_lt
      (show 0 < denominator * 2 ^ (roundingExponent numerator denominator).toNat by positivity)
      (Nat.mod_two_ne_zero.mp odd)
    rw [scaled, roundedSignificand, ← sub_mul, abs_mul, abs_of_pos unit]
    calc _ < 1 / 2 * (2 : ℚ) ^ roundingExponent numerator denominator := by gcongr
      _ = 2 ^ roundingExponent numerator denominator / 2 := by ring
  rw [← Int.cast_natCast (roundedSignificand numerator denominator)] at close near ⊢
  exact Nearest.eq_of_half_unit full close onGrid near

/-- From halfway between the greatest double and the end of the range on, all is infinite. -/
def overflowBound : ℚ :=
  ceiling - 2 ^ (970 : ℤ)

/-- The greatest finite double. -/
def greatest : ℚ :=
  ceiling - 2 ^ (971 : ℤ)

/-- The greatest finite double has 53 digits. -/
theorem greatest_eq : greatest = (2 ^ 53 - 1 : ℤ) * 2 ^ (971 : ℤ) := by
  -- The range ends one unit after the greatest significand.
  have whole : ceiling = 2 ^ 53 * 2 ^ (971 : ℤ) := two_zpow_eq (by decide)
  rw [greatest, whole]
  generalize (2 : ℚ) ^ (971 : ℤ) = unit
  push_cast
  ring

/-- The greatest finite double is on the grid. -/
theorem onGrid_greatest : OnGrid greatest :=
  ⟨2 ^ 53 - 1, 971, by decide, by decide, greatest_eq⟩

/-- Below the end of the range, nothing on the grid is beyond the greatest finite double. -/
theorem OnGrid.le_greatest {number : ℚ} (onGrid : OnGrid number) (below : number < ceiling) :
    number ≤ greatest := by
  -- A number on the grid is a multiple of the last unit, or far below its end.
  have unit : (0 : ℚ) < 2 ^ (971 : ℤ) := by positivity
  have whole : ceiling = 2 ^ 53 * 2 ^ (971 : ℤ) := two_zpow_eq (by decide)
  rw [greatest_eq]
  rcases onGrid.exists_multiple_or_le 971 with ⟨multiple, rfl⟩ | ⟨-, least⟩
  · rw [whole, mul_lt_mul_iff_left₀ unit] at below
    have few : multiple < 2 ^ 53 := by exact_mod_cast below
    have bound : multiple ≤ 2 ^ 53 - 1 := by omega
    have cast : (multiple : ℚ) ≤ (2 ^ 53 - 1 : ℤ) := by exact_mod_cast bound
    gcongr
  · refine least.trans ?_
    gcongr
    norm_num

/-- A power of two is twice the one before it. -/
theorem two_zpow_succ (place : ℤ) : (2 : ℚ) ^ (place + 1) = 2 * 2 ^ place := by
  -- One more place doubles the unit.
  rw [zpow_add_one₀ two_ne_zero, mul_comm]

/-- The bound is halfway between the greatest finite double and the end of the range. -/
theorem exists_halfway :
    ∃ half : ℚ, 0 < half ∧ overflowBound = greatest + half ∧ ceiling = overflowBound + half := by
  -- Half of the last unit leads from one to the next.
  have double : (2 : ℚ) ^ (971 : ℤ) = 2 * 2 ^ (970 : ℤ) := two_zpow_succ 970
  refine ⟨2 ^ (970 : ℤ), by positivity, ?_, ?_⟩
  · rw [overflowBound, greatest, double]
    ring
  · rw [overflowBound, sub_add_cancel]

namespace RoundedEven

variable {number : ℚ} {mantissa : Nat} {place : Int}

/-- The greatest finite double has an odd significand. -/
theorem odd_of_greatest (rounded : RoundedEven number mantissa place)
    (same : (mantissa * 2 ^ place : ℚ) = greatest) : mantissa % 2 = 1 := by
  -- At another place, so few digits are worth less or more.
  obtain ⟨-, narrow, full, -, -⟩ := rounded
  have digits : (mantissa : ℚ) ≤ 2 ^ 53 := by exact_mod_cast narrow
  rw [greatest_eq] at same
  rcases lt_trichotomy place 971 with lower | rfl | higher
  · have shorter : (2 : ℚ) ^ place ≤ 2 ^ (970 : ℤ) := zpow_le_zpow_right₀ one_le_two (by omega)
    have double : (2 : ℚ) ^ (971 : ℤ) = 2 * 2 ^ (970 : ℤ) := two_zpow_succ 970
    have unit : (0 : ℚ) < 2 ^ (970 : ℤ) := by positivity
    have less : (mantissa * 2 ^ place : ℚ) ≤ 2 ^ 53 * 2 ^ (970 : ℤ) := by gcongr
    rw [same, double] at less
    generalize (2 : ℚ) ^ (970 : ℤ) = step at less unit
    push_cast at less
    nlinarith
  · have unit : (2 : ℚ) ^ (971 : ℤ) ≠ 0 := by positivity
    have exact : (mantissa : ℤ) = 2 ^ 53 - 1 := by exact_mod_cast mul_right_cancel₀ unit same
    omega
  · have longer : (2 : ℚ) ^ (972 : ℤ) ≤ 2 ^ place := zpow_le_zpow_right₀ one_le_two (by omega)
    have double : (2 : ℚ) ^ (972 : ℤ) = 2 * 2 ^ (971 : ℤ) := two_zpow_succ 971
    have leading : (2 : ℚ) ^ 52 ≤ mantissa := by
      exact_mod_cast full.resolve_left (by unfold leastExponent; omega)
    have unit : (0 : ℚ) < 2 ^ (971 : ℤ) := by positivity
    have more : (2 : ℚ) ^ 52 * 2 ^ (972 : ℤ) ≤ mantissa * 2 ^ place :=
      mul_le_mul leading longer (zpow_pos two_pos _).le (Nat.cast_nonneg _)
    rw [same, double] at more
    generalize (2 : ℚ) ^ (971 : ℤ) = step at more unit
    push_cast at more
    nlinarith

/-- A number is rounded to one within the range unless it is halfway to the end or beyond. -/
theorem lt_ceiling_iff (rounded : RoundedEven number mantissa place) :
    (mantissa * 2 ^ place : ℚ) < ceiling ↔ number < overflowBound := by
  -- All of these are on the grid: the greatest double and the end of the range.
  obtain ⟨half, positive, halfway, rest⟩ := exists_halfway
  have onGridEnd : OnGrid ceiling := .two_zpow (by decide)
  have nearest := rounded.nearest
  generalize worth : (mantissa * 2 ^ place : ℚ) = result at *
  constructor
  · intro within
    by_contra beyond
    have low : result ≤ greatest := nearest.onGrid.le_greatest within
    have before : number < ceiling := by
      by_contra past
      exact absurd within (not_lt.mpr (nearest.ge onGridEnd (not_lt.mp past)))
    -- The end of the range is as near as the greatest double, whose significand is odd.
    have down : |number - result| = number - result := abs_of_nonneg (by linarith)
    have up : |number - ceiling| = ceiling - number := by
      rw [abs_sub_comm, abs_of_pos (by linarith)]
    have closer := nearest.nearest ceiling onGridEnd
    rw [down, up] at closer
    have same : (mantissa * 2 ^ place : ℚ) = greatest := by linarith
    have odd := rounded.odd_of_greatest same
    have even := rounded.even ceiling onGridEnd (by rw [worth]; exact within.ne')
      (by rw [worth, down, up]; linarith)
    omega
  · intro before
    by_contra beyond
    -- The greatest double would be nearer.
    have closer := nearest.nearest greatest onGrid_greatest
    by_cases low : number ≤ greatest
    · have kept := nearest.le onGrid_greatest low
      linarith
    · rw [abs_sub_comm, abs_of_pos (a := result - number) (by linarith),
        abs_of_pos (a := number - greatest) (by linarith)] at closer
      linarith

end RoundedEven

/-- The double nearest to a number that is not negative, with ties to even, and infinity beyond. -/
structure RoundsToEven (number : ℚ) (x : Float) : Prop where
  /-- The sign is not set. -/
  plus : isNegative x = false
  /-- From halfway between the greatest double and the next power of two on, it is infinity. -/
  infinite : overflowBound ≤ number → x = ofPattern false infinityPattern
  /-- All other numbers are rounded to finite doubles. -/
  finite : number < overflowBound → x.isFinite = true
  /-- No finite double is nearer. -/
  nearest : number < overflowBound → ∀ y : Float, y.isFinite = true →
    |number - value x| ≤ |number - value y|
  /-- If another finite double is as near, then the significand is even. -/
  even : number < overflowBound → ∀ y : Float, y.isFinite = true → value y ≠ value x →
    |number - value y| = |number - value x| → significand x % 2 = 0

/-- Canonical significands of the same worth are the same. -/
theorem Canonical.eq_of_worth {m n : Nat} {d e : Int} (first : Canonical m d)
    (second : Canonical n e) (same : (m * 2 ^ d : ℚ) = n * 2 ^ e) : m = n := by
  -- Equal numbers have equal exponents, and then equal significands.
  have equal := first.compare_eq second
  rw [compare_eq_iff_eq.mpr same, Ordering.then_eq_eq] at equal
  exact Nat.compare_eq_eq.mp equal.2

/-- The significand of a finite double is even if it is worth an even number of units. -/
theorem significand_even {x : Float} (finite : x.isFinite = true) {number : ℚ} {mantissa : Nat}
    {place : Int} (rounded : RoundedEven number mantissa place)
    (worth : value x = mantissa * 2 ^ place) (even : mantissa % 2 = 0) :
    significand x % 2 = 0 := by
  -- The same number has one canonical significand.
  have canonical := canonical_significand x
  have same : (significand x * 2 ^ exponent x : ℚ) = mantissa * 2 ^ place := by
    have magnitude := congrArg abs worth
    rw [value_eq finite, abs_signed] at magnitude
    rwa [abs_of_nonneg (by positivity), abs_of_nonneg (by positivity)] at magnitude
  rcases Nat.lt_or_eq_of_le rounded.narrow with short | carry
  · have other : Canonical mantissa place := ⟨short, rounded.least, rounded.full.symm⟩
    rw [canonical.eq_of_worth other same]
    exact even
  · -- A carry leaves the leading digit alone.
    have other : Canonical (2 ^ 52) (place + 1) :=
      ⟨by norm_num, by have := rounded.least; omega, .inl le_rfl⟩
    have carried : (mantissa * 2 ^ place : ℚ) = (2 ^ 52 : ℕ) * 2 ^ (place + 1) := by
      rw [carry, two_zpow_succ]
      push_cast
      ring
    rw [canonical.eq_of_worth other (same.trans carried)]

/-- A number that is rounded to a significand has a nearest double, with the pattern of both. -/
theorem RoundedEven.roundsToEven {number : ℚ} {mantissa : Nat} {place : Int}
    (rounded : RoundedEven number mantissa place) : RoundsToEven number (ofPattern false
      (min ((place - leastExponent).toNat * 2 ^ 52 + mantissa) infinityPattern)) := by
  -- The pattern makes the double with this significand, or infinity beyond the range.
  have outcome := ofPattern_rounded false rounded.least rounded.narrow rounded.full
  set bits := min ((place - leastExponent).toNat * 2 ^ 52 + mantissa) infinityPattern with chosen
  simp only [rounded.lt_ceiling_iff] at outcome
  have few : bits ≤ infinityPattern := Nat.min_le_right _ _
  refine ⟨isNegative_ofPattern false few, fun beyond => ?_, fun within => ?_,
    fun within y finite => ?_, fun within y finite distinct tie => ?_⟩
  · rwa [if_neg (not_lt.mpr beyond)] at outcome
  · rw [if_pos within] at outcome
    exact outcome.1
  · rw [if_pos within] at outcome
    rw [outcome.2]
    exact rounded.nearest.nearest _ (onGrid_value finite)
  · rw [if_pos within] at outcome
    have worth : value (ofPattern false bits) = mantissa * 2 ^ place := outcome.2
    rw [worth] at distinct tie
    exact significand_even outcome.1 rounded worth
      (rounded.even _ (onGrid_value finite) distinct tie.le)

/-- A ratio is rounded to the nearest double, with ties to even. -/
theorem roundsToEven_nearest (numerator : Nat) {denominator : Nat} (positive : 0 < denominator) :
    RoundsToEven (numerator / denominator) (nearest false numerator denominator) := by
  by_cases zero : numerator = 0
  · -- Zero has its own pattern.
    have made := RoundedEven.zero.roundsToEven
    have pattern : nearest false 0 denominator = ofPattern false
        (min ((leastExponent - leastExponent).toNat * 2 ^ 52 + 0) infinityPattern) := by
      simp [nearest, nearestPattern]
    rw [zero, Nat.cast_zero, zero_div, pattern]
    exact made
  · -- Any other number has the pattern of its rounded significand.
    have made := (roundedEven_ratio (Nat.pos_of_ne_zero zero) positive).roundsToEven
    simp only [nearest, nearestPattern, zero, if_false]
    exact made

end Double

/-- A decimal number is converted to the nearest double, with ties to even. -/
theorem Decimal.roundsToEven_toFloat (d : Decimal) :
    Double.RoundsToEven d.worth (d.toFloat false) := by
  -- The number is converted as the ratio that it is worth.
  rw [toFloat_eq, worth_eq]
  exact Double.roundsToEven_nearest _ (by positivity)

end Formula
