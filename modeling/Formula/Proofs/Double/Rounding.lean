import Formula.Double
import Mathlib

/-! Rounding of exact numbers to doubles: shifted significands are nearest quotients. -/

namespace Formula

/-- A quotient is rounded to itself or to the next whole number. -/
theorem nearestQuotient_le (numerator denominator : Nat) :
    nearestQuotient numerator denominator ≤ numerator / denominator + 1 := by
  -- At most one is added to the whole part.
  unfold nearestQuotient
  dsimp only
  split <;> omega

/-- A quotient is not rounded below its whole part. -/
theorem le_nearestQuotient (numerator denominator : Nat) :
    numerator / denominator ≤ nearestQuotient numerator denominator := by
  -- Something may be added to the whole part, but nothing is taken away.
  unfold nearestQuotient
  dsimp only
  split <;> omega

/-- A quotient is rounded to zero exactly if it is at most a half. -/
theorem nearestQuotient_eq_zero {numerator denominator : Nat} (positive : 0 < denominator) :
    nearestQuotient numerator denominator = 0 ↔ 2 * numerator ≤ denominator := by
  -- Only a quotient without a whole part can be rounded to zero, and a half is.
  by_cases small : numerator < denominator
  · have whole : numerator / denominator = 0 := Nat.div_eq_of_lt small
    have rest : numerator % denominator = numerator := Nat.mod_eq_of_lt small
    simp only [nearestQuotient, whole, rest]
    split <;> simp_all <;> omega
  · have whole : 0 < numerator / denominator := Nat.div_pos (by omega) positive
    simp only [nearestQuotient]
    split <;> omega

namespace Double

open Float.Model Float.Model.UnpackedFloat

/-- A quotient, the binary digit after it, and whether other digits follow. -/
def extended (numerator denominator : Nat) : ExtendedMantissa :=
  ⟨numerator / denominator, decide (denominator ≤ 2 * (numerator % denominator)),
    decide (numerator % denominator ≠ 0 ∧ 2 * (numerator % denominator) ≠ denominator)⟩

/-- The whole digits of a quotient are before the others. -/
theorem mantissa_extended (numerator denominator : Nat) :
    (extended numerator denominator).mantissa = numerator / denominator :=
  rfl

/-- What a division leaves over is kept in the digits behind the quotient. -/
theorem ofMantissaAndAccuracy_eq {denominator : Nat} (positive : 0 < denominator)
    (numerator : Nat) :
    .ofMantissaAndAccuracy (numerator / denominator)
      (accuracyOfFraction (numerator % denominator) denominator) =
        extended numerator denominator := by
  -- The rest is nothing, or it is compared with a half.
  have below : numerator % denominator < denominator := Nat.mod_lt _ positive
  unfold accuracyOfFraction extended
  by_cases none : numerator % denominator = 0
  · simp [none, ExtendedMantissa.ofMantissaAndAccuracy]
    omega
  · rcases Nat.lt_trichotomy (2 * (numerator % denominator)) denominator with less | half | more
    · have order : compare (2 * (numerator % denominator)) denominator = .lt :=
        Nat.compare_eq_lt.mpr less
      simp [none, order, ExtendedMantissa.ofMantissaAndAccuracy]
      omega
    · have order : compare (2 * (numerator % denominator)) denominator = .eq :=
        Nat.compare_eq_eq.mpr half
      simp [none, order, ExtendedMantissa.ofMantissaAndAccuracy]
      omega
    · have order : compare (2 * (numerator % denominator)) denominator = .gt :=
        Nat.compare_eq_gt.mpr more
      simp [none, order, ExtendedMantissa.ofMantissaAndAccuracy]
      omega

/-- A quotient is shifted by one place when its denominator is doubled. -/
theorem extended_shiftRightOne {denominator : Nat} (positive : 0 < denominator)
    (numerator : Nat) :
    (extended numerator denominator).shiftRightOne = extended numerator (denominator * 2) := by
  -- What is behind the new place is the last digit of the quotient, and the rest before.
  have below : numerator % denominator < denominator := Nat.mod_lt _ positive
  have behind : numerator % (denominator * 2) =
      numerator % denominator + denominator * (numerator / denominator % 2) := Nat.mod_mul
  have digit : numerator / denominator % 2 = 0 ∨ numerator / denominator % 2 = 1 := by omega
  simp only [extended, ExtendedMantissa.shiftRightOne, Nat.div_div_eq_div_mul, behind]
  rcases digit with digit | digit <;> simp [digit] <;> grind

/-- A quotient is shifted when its denominator is multiplied by a power of two. -/
theorem extended_shiftRight {denominator : Nat} (positive : 0 < denominator)
    (numerator places : Nat) :
    extended numerator denominator >>> places =
      extended numerator (denominator * 2 ^ places) := by
  -- The places are shifted one after the other, each of which doubles the denominator.
  induction places with
  | zero =>
    rw [Nat.pow_zero, Nat.mul_one]
    rfl
  | succ places ih =>
    have next : extended numerator denominator >>> (places + 1) =
        (extended numerator denominator >>> places).shiftRightOne := rfl
    rw [next, ih, extended_shiftRightOne (by positivity), Nat.mul_assoc, ← Nat.pow_succ]

/-- A significand is rounded up if more than a half is behind it, or a half and it is odd. -/
theorem roundedMantissa_eq (mantissa : Nat) (roundBit stickyBit : Bool) :
    (ExtendedMantissa.mk mantissa roundBit stickyBit).roundedMantissa =
      if roundBit = true ∧ (stickyBit = true ∨ mantissa % 2 = 1) then mantissa + 1
      else mantissa := by
  -- The two digits behind the significand tell all that rounding asks for.
  cases roundBit <;> cases stickyBit <;>
    simp [ExtendedMantissa.roundedMantissa, ExtendedMantissa.accuracy,
      Accuracy.roundToNearestEven]
  split <;> omega

/-- A quotient with the digits behind it is rounded to the nearest whole number. -/
theorem roundedMantissa_extended {denominator : Nat} (positive : 0 < denominator)
    (numerator : Nat) :
    (extended numerator denominator).roundedMantissa = nearestQuotient numerator denominator := by
  -- The digits tell whether the rest is below, at or above a half.
  have below : numerator % denominator < denominator := Nat.mod_lt _ positive
  rw [extended, roundedMantissa_eq]
  simp only [nearestQuotient, decide_eq_true_eq, Bool.or_eq_true, Bool.and_eq_true, beq_iff_eq]
  split_ifs <;> omega

/-- How many binary places a significand has more than a double can hold, at its exponent. -/
def excessPlaces (mantissa : Nat) (exponent : Int) : Nat :=
  max (mantissa.log2 - 52) (leastExponent - exponent).toNat

/-- A quotient is shifted by as many places as it has too many. -/
theorem shiftToTargetExponent_eq {numerator denominator : Nat} {exponent : Int} {excess : Nat}
    (positive : 0 < denominator)
    (places : excess = excessPlaces (numerator / denominator) exponent) :
    shiftToTargetExponent .binary64 (numerator / denominator) exponent
        (accuracyOfFraction (numerator % denominator) denominator) =
      (extended numerator (denominator * 2 ^ excess), exponent + excess) := by
  -- The exponent that is aimed at is the least one, or leaves the leading 53 places.
  have target : Format.binary64.targetExponent
      (totalExponent (numerator / denominator) exponent) =
        max ((numerator / denominator).log2 - 52 + exponent) leastExponent := by
    simp only [Format.targetExponent, totalExponent, Format.mantissaBits, Format.minExponent,
      leastExponent]
    omega
  have amount : (max ((numerator / denominator).log2 - 52 + exponent) leastExponent -
      exponent).toNat = excess := by
    unfold excessPlaces at places
    omega
  simp only [shiftToTargetExponent, shiftToExponent, target, amount,
    ofMantissaAndAccuracy_eq positive, extended_shiftRight positive]

/-- A whole number is a quotient by one, which leaves nothing over. -/
theorem accuracyOfFraction_one (mantissa : Nat) : accuracyOfFraction (mantissa % 1) 1 = .exact := by
  -- Nothing is left over when a number is divided by one.
  rw [Nat.mod_one]
  rfl

/-- A whole number is shifted by as many places as it has too many. -/
theorem shiftToTargetExponent_exact (mantissa : Nat) (exponent : Int) :
    shiftToTargetExponent .binary64 mantissa exponent .exact =
      (extended mantissa (2 ^ excessPlaces mantissa exponent),
        exponent + excessPlaces mantissa exponent) := by
  -- A whole number is a quotient by one.
  have whole := @shiftToTargetExponent_eq mantissa 1 exponent _ Nat.one_pos rfl
  rwa [accuracyOfFraction_one, Nat.div_one, Nat.one_mul] at whole

/-- A significand of at most 53 binary digits, which is full unless the exponent is the least. -/
structure Canonical (mantissa : Nat) (exponent : Int) : Prop where
  narrow : mantissa < 2 ^ 53
  bounded : leastExponent ≤ exponent
  full : 2 ^ 52 ≤ mantissa ∨ exponent = leastExponent

/-- A product of canonical significands has enough digits to be rounded. -/
theorem Canonical.wide_mul {m n : Nat} {d e : Int} (first : Canonical m d) (second : Canonical n e)
    (positive : 0 < m) (positiveOther : 0 < n) :
    2 ^ 52 ≤ m * n ∨ d + e ≤ leastExponent := by
  -- If one of the factors is full, the product has at least as many digits.
  rcases first.full with full | least
  · exact .inl (Nat.le_trans full (Nat.le_mul_of_pos_right m positiveOther))
  · rcases second.full with full | leastOther
    · exact .inl (Nat.le_trans full (Nat.le_mul_of_pos_left n positive))
    · refine .inr ?_
      rw [least, leastOther]
      decide

/-- The places of a significand that a double can hold are at most 53. -/
theorem lt_two_pow_excessPlaces (mantissa : Nat) (exponent : Int) :
    mantissa < 2 ^ (53 + excessPlaces mantissa exponent) := by
  -- All places beyond the first 53 are among the excess.
  have within : mantissa.log2 + 1 ≤ 53 + excessPlaces mantissa exponent := by
    unfold excessPlaces
    omega
  exact Nat.lt_of_lt_of_le Nat.lt_log2_self (Nat.pow_le_pow_right (by decide) within)

/-- Above the least exponent, at least 53 places remain. -/
theorem two_pow_excessPlaces_le {mantissa : Nat} {exponent : Int} (positive : 0 < mantissa)
    (wide : 2 ^ 52 ≤ mantissa ∨ exponent ≤ leastExponent)
    (above : leastExponent < exponent + excessPlaces mantissa exponent) :
    2 ^ (52 + excessPlaces mantissa exponent) ≤ mantissa := by
  -- No more places are dropped than the significand has beyond the first 53.
  have long : 52 + excessPlaces mantissa exponent ≤ mantissa.log2 := by
    rcases wide with wide | low
    · have enough : 52 ≤ mantissa.log2 := (Nat.le_log2 (by omega)).mpr wide
      unfold excessPlaces at above ⊢
      omega
    · unfold excessPlaces at above ⊢
      omega
  exact (Nat.le_log2 (by omega)).mp long

/-- A significand vanishes exactly if it is at most half of a unit at the least exponent. -/
theorem nearestQuotient_excessPlaces {mantissa : Nat} (positive : 0 < mantissa) (exponent : Int) :
    nearestQuotient mantissa (2 ^ excessPlaces mantissa exponent) = 0 ↔
      2 * mantissa ≤ 2 ^ (leastExponent - exponent).toNat := by
  -- Excess places of the significand itself do not take away its leading place.
  have leading : 2 ^ mantissa.log2 ≤ mantissa := Nat.log2_self_le (by omega)
  have fewer : 2 ^ (mantissa.log2 - 52) ≤ mantissa :=
    Nat.le_trans (Nat.pow_le_pow_right (by decide) (Nat.sub_le ..)) leading
  rw [nearestQuotient_eq_zero (Nat.two_pow_pos _), excessPlaces]
  rcases Nat.le_total (mantissa.log2 - 52) (leastExponent - exponent).toNat with less | more
  · rw [Nat.max_eq_right less]
  · have shorter : 2 ^ (leastExponent - exponent).toNat ≤ 2 ^ (mantissa.log2 - 52) :=
      Nat.pow_le_pow_right (by decide) more
    rw [Nat.max_eq_left more]
    omega

/-- A carry out of a rounded significand is shifted back into it, and nothing is lost. -/
theorem canonical_carried {rounded : Nat} {exponent : Int} (positive : 0 < rounded)
    (narrow : rounded ≤ 2 ^ 53) (bounded : leastExponent ≤ exponent)
    (full : 2 ^ 52 ≤ rounded ∨ exponent = leastExponent) :
    0 < rounded / 2 ^ excessPlaces rounded exponent ∧
      Canonical (rounded / 2 ^ excessPlaces rounded exponent)
        (exponent + excessPlaces rounded exponent) ∧
      2 ^ excessPlaces rounded exponent ∣ rounded := by
  -- There is a carry only if the significand is the least one of 54 places.
  rcases Nat.lt_or_eq_of_le narrow with less | carry
  · have none : excessPlaces rounded exponent = 0 := by
      have short : rounded.log2 < 53 := (Nat.log2_lt (by omega)).mpr less
      unfold excessPlaces
      omega
    simp only [none, Nat.pow_zero, Nat.div_one, Int.natCast_zero, Int.add_zero]
    exact ⟨positive, ⟨less, bounded, full⟩, Nat.one_dvd rounded⟩
  · subst carry
    have one : excessPlaces (2 ^ 53) exponent = 1 := by
      have long : Nat.log2 (2 ^ 53) = 53 := Nat.log2_two_pow
      unfold excessPlaces
      omega
    rw [one]
    exact ⟨by decide, ⟨by decide, by omega, .inl (by decide)⟩, by decide⟩

/-- The nearest quotient at the place where it is rounded has few digits, and no more than fit. -/
structure RoundedAt (numerator denominator : Nat) (exponent : Int) (excess : Nat) : Prop where
  bounded : leastExponent ≤ exponent + excess
  narrow : nearestQuotient numerator (denominator * 2 ^ excess) ≤ 2 ^ 53
  full : exponent + excess = leastExponent ∨ 2 ^ 52 * (denominator * 2 ^ excess) ≤ numerator

/-- A quotient without its excess places is one of few digits, which are all there are. -/
theorem roundedAt_excessPlaces {numerator denominator : Nat} {exponent : Int}
    (positive : 0 < denominator)
    (wide : 2 ^ 52 ≤ numerator / denominator ∨ exponent ≤ leastExponent) :
    RoundedAt numerator denominator exponent
      (excessPlaces (numerator / denominator) exponent) := by
  -- No exponent below the least one remains.
  have place : leastExponent ≤ exponent + excessPlaces (numerator / denominator) exponent := by
    unfold excessPlaces
    omega
  refine ⟨place, ?_, ?_⟩
  · -- Without the excess there are 53 digits, and rounding adds no more than one unit.
    have short := lt_two_pow_excessPlaces (numerator / denominator) exponent
    rw [Nat.pow_add, ← Nat.div_lt_iff_lt_mul (Nat.two_pow_pos _), Nat.div_div_eq_div_mul] at short
    exact Nat.le_trans (nearestQuotient_le _ _) short
  · -- Only at the least exponent may digits be missing.
    rcases Int.lt_or_eq_of_le place with above | least
    · have some : 0 < numerator / denominator := by
        refine Nat.pos_of_ne_zero fun none => ?_
        unfold excessPlaces at above
        rw [none, Nat.log2_zero] at above
        omega
      have long := two_pow_excessPlaces_le some wide above
      rw [Nat.le_div_iff_mul_le positive, Nat.pow_add] at long
      exact .inr (by rwa [Nat.mul_comm denominator, ← Nat.mul_assoc])
    · exact .inl least.symm

/-- A quotient is rounded to zero, or to a canonical significand for the nearest quotient. -/
theorem roundWithAccuracy_quotient (sign : Sign) {numerator denominator : Nat} {exponent : Int}
    {excess : Nat} (positive : 0 < denominator)
    (wide : 2 ^ 52 ≤ numerator / denominator ∨ exponent ≤ leastExponent)
    (places : excess = excessPlaces (numerator / denominator) exponent) :
    let rounded := nearestQuotient numerator (denominator * 2 ^ excess)
    let result := roundWithAccuracy .binary64 sign (numerator / denominator) exponent
      (accuracyOfFraction (numerator % denominator) denominator)
    (rounded = 0 ∧ result = .zero sign) ∨
      0 < rounded ∧ ∃ (mantissa carry : Nat) (nonzero : 0 < mantissa),
        rounded = mantissa * 2 ^ carry ∧ Canonical mantissa (exponent + excess + carry) ∧
          result = .finite sign mantissa (exponent + excess + carry) nonzero := by
  -- The significand is shifted, rounded, and shifted again if rounding has made it longer.
  obtain ⟨bounded, narrow, full⟩ := places ▸ roundedAt_excessPlaces positive wide
  have divisor : 0 < denominator * 2 ^ excess := by positivity
  simp only [roundWithAccuracy, shiftToTargetExponent_eq positive places,
    roundedMantissa_extended divisor, shiftToTargetExponent_exact, mantissa_extended]
  set rounded := nearestQuotient numerator (denominator * 2 ^ excess) with nearest
  rcases Nat.eq_zero_or_pos rounded with zero | nonzero
  · exact .inl ⟨zero, dif_pos (by rw [← nearest, zero, Nat.zero_div])⟩
  · -- Rounding does not take away digits of the whole part.
    have digits : 2 ^ 52 ≤ rounded ∨ exponent + excess = leastExponent := by
      refine full.symm.imp_left fun long => ?_
      rw [← Nat.le_div_iff_mul_le divisor] at long
      exact Nat.le_trans long (le_nearestQuotient _ _)
    obtain ⟨carried, canonical, whole⟩ := canonical_carried nonzero narrow bounded digits
    exact .inr ⟨nonzero, _, _, carried, (Nat.div_mul_cancel whole).symm, canonical,
      dif_neg (Nat.ne_of_gt carried)⟩

/-- An exact number is rounded to zero exactly if it is at most half of the least double. -/
theorem roundWithAccuracy_exact (sign : Sign) {mantissa : Nat} {exponent : Int}
    (positive : 0 < mantissa) (wide : 2 ^ 52 ≤ mantissa ∨ exponent ≤ leastExponent) :
    (2 * mantissa ≤ 2 ^ (leastExponent - exponent).toNat ∧
      roundWithAccuracy .binary64 sign mantissa exponent .exact = .zero sign) ∨
    (2 ^ (leastExponent - exponent).toNat < 2 * mantissa ∧
      ∃ rounded place nonzero,
        roundWithAccuracy .binary64 sign mantissa exponent .exact =
            .finite sign rounded place nonzero ∧ Canonical rounded place) := by
  -- A whole number is a quotient by one.
  have vanishing := nearestQuotient_excessPlaces positive exponent
  have whole := @roundWithAccuracy_quotient sign mantissa 1 exponent _ Nat.one_pos
    (by rwa [Nat.div_one]) rfl
  simp only [Nat.div_one, Nat.one_mul, accuracyOfFraction_one] at whole
  rcases whole with ⟨zero, none⟩ | ⟨nonzero, rounded, carry, some, -, canonical, finite⟩
  · exact .inl ⟨vanishing.mp zero, none⟩
  · refine .inr ⟨Nat.lt_of_not_le fun small => ?_, rounded, _, some, finite, canonical⟩
    exact Nat.ne_of_gt nonzero (vanishing.mpr small)

end Double

end Formula
