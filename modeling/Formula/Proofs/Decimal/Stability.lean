import Formula.Proofs.Decimal.Ties

/-! Rounding to decimal places twice is rounding once, though each result is made a double. -/

namespace Formula

namespace Double

variable {number rounded : ℚ}

/-- A number is rounded as its magnitude is. -/
theorem Nearest.magnitude (nearest : Nearest number rounded) : Nearest |number| |rounded| := by
  -- Rounding does not pass zero, so that both have the same sign.
  rcases le_total 0 number with nonneg | nonpos
  · rw [abs_of_nonneg nonneg, abs_of_nonneg (nearest.ge .zero nonneg)]
    exact nearest
  · rw [abs_of_nonpos nonpos, abs_of_nonpos (nearest.le .zero nonpos)]
    exact nearest.neg

end Double

namespace Decimal

/-- A number is at most half a unit from a multiple of it, which is even if it is that far away. -/
structure RoundsToMultiple (unit number : ℚ) (multiple : ℕ) : Prop where
  close : |number - multiple * unit| ≤ unit / 2
  even : |number - multiple * unit| = unit / 2 → multiple % 2 = 0

namespace RoundsToMultiple

variable {unit number nearer : ℚ} {multiple other : ℕ}

/-- A number is rounded to one multiple of a unit only. -/
theorem unique (positive : 0 < unit) (rounds : RoundsToMultiple unit number multiple)
    (roundsOther : RoundsToMultiple unit number other) : other = multiple := by
  by_contra distinct
  -- Of two of them, each is half a unit away.
  have apart := @Double.Nearest.le_add_of_multiples number unit positive multiple other
    (by exact_mod_cast distinct)
  rw [Int.cast_natCast, Int.cast_natCast] at apart
  have even := rounds.even (by linarith [rounds.close, roundsOther.close])
  have evenOther := roundsOther.even (by linarith [rounds.close, roundsOther.close])
  -- Even multiples are farther apart than that.
  have next : |(other : ℚ) - multiple| ≤ 1 := by
    have triangle := abs_sub_le (other * unit) number (multiple * unit)
    rw [← sub_mul, abs_mul, abs_of_pos positive, abs_sub_comm _ number] at triangle
    refine le_of_mul_le_mul_right ?_ positive
    linarith [rounds.close, roundsOther.close]
  have whole : |(other : ℤ) - multiple| ≤ 1 := by exact_mod_cast next
  rw [abs_le] at whole
  omega

/-- A number nearer to a multiple than one that is rounded to it is rounded to it as well. -/
theorem of_nearer (rounds : RoundsToMultiple unit number multiple)
    (closer : |nearer - multiple * unit| ≤ |number - multiple * unit|) :
    RoundsToMultiple unit nearer multiple where
  -- At half a unit away, the nearer number is as far away as the other one.
  close := closer.trans rounds.close
  even := fun half => rounds.even (le_antisymm rounds.close (half ▸ closer))

end RoundsToMultiple

/-- A quotient is rounded to the nearest multiple of a unit. -/
theorem roundsToMultiple_nearestQuotient {unit : ℚ} (positive : 0 < unit) (numerator : ℕ)
    {denominator : ℕ} (some : 0 < denominator) :
    RoundsToMultiple unit (numerator / denominator * unit)
      (nearestQuotient numerator denominator) := by
  -- In units of the multiple, this is how quotients are rounded.
  have scaled : |(numerator / denominator * unit : ℚ) -
      nearestQuotient numerator denominator * unit| =
        |(numerator / denominator : ℚ) - nearestQuotient numerator denominator| * unit := by
    rw [← sub_mul, abs_mul, abs_of_pos positive]
  constructor
  · rw [scaled]
    calc _ ≤ 1 / 2 * unit := by gcongr; exact abs_sub_nearestQuotient_le numerator some
      _ = unit / 2 := by ring
  · -- An odd quotient is nearer than a half.
    intro half
    by_contra odd
    have less := abs_sub_nearestQuotient_lt some (Nat.mod_two_ne_zero.mp odd)
    rw [scaled] at half
    have below := mul_lt_mul_of_pos_right less positive
    linarith

/-- A number with more decimal places is rounded to a multiple of a unit of the last place. -/
theorem exists_roundsToMultiple {places : Int} {d : Decimal} (more : d.exponent < -places) :
    ∃ multiple : ℕ, (d.toPlaces places).worth = multiple * 10 ^ (-places) ∧
      RoundsToMultiple (10 ^ (-places)) d.worth multiple := by
  -- In units of the last place, the number is a quotient by a power of ten.
  refine ⟨nearestQuotient d.coefficient (10 ^ (-places - d.exponent).toNat), ?_, ?_⟩
  · rw [toPlaces, if_neg (not_le.mpr more), worth, dropDigits_eq]
  · rw [worth_eq_quotient more]
    exact roundsToMultiple_nearestQuotient (by positivity) d.coefficient (by positivity)

variable {places : Int} {x : Float}

/-- Rounding keeps the sign, also of zero. -/
theorem isNegative_round (places : Int) (x : Float) :
    Double.isNegative (Decimal.round places x) = Double.isNegative x := by
  -- The rounded magnitude is made a double with the sign of the original.
  unfold Decimal.round
  split_ifs
  · rw [toFloat_eq, Double.isNegative_ofPattern _ (pattern_le _)]
  · rfl

/-- A finite double without digits to drop is not changed. -/
theorem round_of_few (finite : x.isFinite = true) (few : -places ≤ (magnitude x).exponent) :
    Decimal.round places x = x := by
  -- Its exact magnitude has the pattern of the double itself.
  rw [Decimal.round, if_pos finite, toPlaces, if_pos few, toFloat_eq, pattern_magnitude finite,
    Double.ofPattern_pattern]

/-- The magnitude of a rounded double is that of the rounded decimal number, as a double. -/
theorem nearest_round (finite : x.isFinite = true)
    (kept : (Decimal.round places x).isFinite = true) :
    Double.Nearest ((magnitude x).toPlaces places).worth
      |Double.value (Decimal.round places x)| := by
  -- The rounded number is not negative, so that its sign can be left out.
  have nearest := ((rounds_round places finite).nearest kept).magnitude
  have nonneg : 0 ≤ ((magnitude x).toPlaces places).worth := by
    unfold worth
    positivity
  rwa [Double.abs_signed, abs_of_nonneg nonneg] at nearest

/--
What has been rounded to decimal places is not changed by rounding it again.

A decimal number that is rounded to a double is left by no more than the double that was rounded to
it is away from it. Hence the result is rounded to the same decimal number, whatever the spacing of
doubles, and also where that number is halfway between others.
-/
theorem round_round (places : Int) (x : Float) :
    Decimal.round places (Decimal.round places x) = Decimal.round places x := by
  set r := Decimal.round places x with rounded
  by_cases kept : r.isFinite = true
  swap
  · -- What is not finite is never changed.
    rw [Decimal.round, if_neg kept]
  by_cases finite : x.isFinite = true
  swap
  · rw [Decimal.round, if_neg finite] at rounded
    exact absurd (rounded ▸ kept) finite
  rcases le_or_gt (-places) (magnitude x).exponent with few | more
  · rw [rounded, round_of_few finite few, round_of_few finite few]
  rcases le_or_gt (-places) (magnitude r).exponent with few | moreOther
  · exact round_of_few kept few
  obtain ⟨multiple, worth, rounds⟩ := exists_roundsToMultiple more
  obtain ⟨other, worthOther, roundsOther⟩ := exists_roundsToMultiple moreOther
  have nearest := nearest_round finite kept
  rw [worth_magnitude_eq finite] at rounds
  rw [worth_magnitude_eq kept] at roundsOther
  rw [worth] at nearest
  -- The double itself is no nearer to the multiple than the result is.
  have closer := nearest.nearest |Double.value x| (Double.onGrid_value finite).magnitude
  rw [abs_sub_comm, abs_sub_comm _ |Double.value x|] at closer
  have same : other = multiple := (rounds.of_nearer closer).unique (by positivity) roundsOther
  have worths : ((magnitude r).toPlaces places).worth = ((magnitude x).toPlaces places).worth := by
    rw [worth, worthOther, same]
  rw [Decimal.round, if_pos kept, toFloat_eq, isNegative_round, pattern_congr worths, ← toFloat_eq,
    rounded, Decimal.round, if_pos finite]

end Decimal

end Formula
