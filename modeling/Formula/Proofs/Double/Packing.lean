import Formula.Proofs.Double.Rounding

/-! Doubles and their parts: what is packed into the bits of a double is unpacked from them. -/

namespace Formula.Double

open Float.Model Float.Model.UnpackedFloat

/-- The sign that the bits of a double show. -/
def sign (x : Float) : Sign :=
  if isNegative x then .negative else .positive

/-- The scale of a double is written above its fraction. -/
theorem toNat_unpackExponent (x : Float) :
    (@unpackExponent .binary64 x.toModel.toBits.toBitVec).toNat = scaleBits x := by
  -- The places below are shifted away, and those above are left out.
  simp [unpackExponent, scaleBits, Float.toBits, Nat.shiftRight_eq_div_pow]

/-- The fraction of a double is written lowest. -/
theorem toNat_unpackMantissa (x : Float) :
    (@unpackMantissa .binary64 x.toModel.toBits.toBitVec).toNat = fractionBits x := by
  -- The places above are left out.
  simp [unpackMantissa, fractionBits, Float.toBits]

/-- The sign of a double is its highest bit. -/
theorem ofBitVec_unpackSign (x : Float) :
    Sign.ofBitVec (@unpackSign .binary64 x.toModel.toBits.toBitVec) = sign x := by
  -- Numbers of 64 places without the highest one are those below its weight.
  have bit : (@unpackSign .binary64 x.toModel.toBits.toBitVec).toNat = x.toBits.toNat / 2 ^ 63 := by
    have below : x.toBits.toNat < 2 ^ 64 := x.toBits.toNat_lt
    simp [unpackSign, Float.toBits, Nat.shiftRight_eq_div_pow] at below ⊢
    omega
  have below : x.toBits.toNat < 2 ^ 64 := x.toBits.toNat_lt
  have zero : (@unpackSign .binary64 x.toModel.toBits.toBitVec = 0#1) ↔
      x.toBits.toNat < 2 ^ 63 := by
    rw [← BitVec.toNat_inj, bit]
    simp
  simp only [Sign.ofBitVec, sign, isNegative, zero, decide_eq_true_eq]
  split_ifs <;> first | rfl | omega

/-- The significand of a double has at most 53 places, and all of them above the least scale. -/
theorem canonical_significand (x : Float) : Canonical (significand x) (exponent x) := by
  -- The leading digit is left out only at the least scale, which has the least exponent.
  have fraction : fractionBits x < 2 ^ 52 := Nat.mod_lt _ (by decide)
  unfold significand exponent
  split_ifs with least
  · exact ⟨by omega, Int.le_refl _, .inr rfl⟩
  · exact ⟨by omega, by unfold leastExponent; omega, .inl (by omega)⟩

/-- The leading digit of a significand is put before its fraction. -/
theorem toNat_append_unpackMantissa (x : Float) :
    (1#1 ++ @unpackMantissa .binary64 x.toModel.toBits.toBitVec).toNat =
      2 ^ 52 + fractionBits x := by
  -- The fraction does not reach the place of the leading digit.
  have below : fractionBits x < 2 ^ 52 := Nat.mod_lt _ (by decide)
  rw [BitVec.toNat_append, toNat_unpackMantissa, Nat.shiftLeft_eq]
  exact (Nat.two_pow_add_eq_or_of_lt below 1).symm

/-- A double is unpacked to its sign, significand and exponent, unless its scale is the greatest. -/
theorem unpack_eq (x : Float) :
    x.toModel.unpack =
      if scaleBits x = 2047 then
        if fractionBits x = 0 then .infinity (sign x) else .notANumber
      else if nonzero : significand x = 0 then .zero (sign x)
      else .finite (sign x) (significand x) (exponent x) (Nat.pos_of_ne_zero nonzero) := by
  -- Each special value of a component is a condition on its number.
  have scale := toNat_unpackExponent x
  have fraction := toNat_unpackMantissa x
  have greatest : (@unpackExponent .binary64 x.toModel.toBits.toBitVec = -1#_) ↔
      scaleBits x = 2047 := by
    rw [← BitVec.toNat_inj, scale]
    rfl
  have least : (@unpackExponent .binary64 x.toModel.toBits.toBitVec = 0#_) ↔ scaleBits x = 0 := by
    rw [← BitVec.toNat_inj, scale]
    rfl
  have empty : (@unpackMantissa .binary64 x.toModel.toBits.toBitVec = 0#_) ↔
      fractionBits x = 0 := by
    rw [← BitVec.toNat_inj, fraction]
    rfl
  unfold Float.Model.unpack UnpackedFloat.unpack
  simp only [ofBitVec_unpackSign, greatest, least, empty, scale, fraction]
  -- The scale decides whether there is a leading digit, and where it is.
  by_cases top : scaleBits x = 2047
  · simp only [top, if_true]
  · simp only [top, if_false]
    by_cases bottom : scaleBits x = 0
    · simp only [bottom, significand, exponent, if_true]
      rfl
    · have bias : (Format.binary64.exponentBias : Int) + 52 = 1075 := rfl
      simpa [bottom, significand, exponent, bias] using toNat_append_unpackMantissa x

/-- A full significand is packed without its leading digit, which is put back. -/
theorem toNat_append_ofNat {mantissa : Nat} (full : 2 ^ 52 ≤ mantissa)
    (narrow : mantissa < 2 ^ 53) : (1#1 ++ BitVec.ofNat 52 mantissa).toNat = mantissa := by
  -- A full significand is its leading digit and a rest of 52 places.
  have below : mantissa % 2 ^ 52 < 2 ^ 52 := Nat.mod_lt _ (by decide)
  have whole : mantissa = 2 ^ 52 * 1 + mantissa % 2 ^ 52 := by omega
  rw [BitVec.toNat_append, BitVec.toNat_ofNat, Nat.shiftLeft_eq]
  exact (Nat.two_pow_add_eq_or_of_lt below 1).symm.trans whole.symm

/-- A finite number is packed with a positive scale, or else without a leading digit. -/
theorem pack_finite (sign : Sign) (mantissa : Nat) (exponent : Int) (positive : 0 < mantissa) :
    UnpackedFloat.pack .binary64 (.finite sign mantissa exponent positive) =
      if 2047 ≤ exponent + 1075 then packedInfinity .binary64 sign
      else if mantissa.log2 = 52 then
        packComponents .binary64 sign (.ofNat 11 (exponent + 1075).toNat) (.ofNat 52 mantissa)
      else packComponents .binary64 sign 0 (.ofNat 52 mantissa) := by
  -- Only the widths of the format have to be filled in.
  have biased : exponent + Format.binary64.exponentBias + (52 : Nat) = exponent + 1075 := by
    have bias : (Format.binary64.exponentBias : Int) = 1023 := rfl
    omega
  have exceeds : 2 ^ 11 ≤ (exponent + 1075).toNat + 1 ↔ 2047 ≤ exponent + 1075 := by omega
  have normal : mantissa.log2 + 1 = Format.binary64.mantissaBits ↔ mantissa.log2 = 52 := by
    change mantissa.log2 + 1 = 53 ↔ _
    omega
  simp only [UnpackedFloat.pack, biased, exceeds, normal]
  rfl

/-- Parts with a scale between the least and the greatest are unpacked with a leading digit. -/
theorem unpack_normal {sign : Sign} {scale : BitVec 11} {mantissa : Nat}
    (positive : 0 < mantissa) (full : 2 ^ 52 ≤ mantissa) (narrow : mantissa < 2 ^ 53)
    (above : scale.toNat ≠ 0) (finite : scale.toNat ≠ 2047) :
    UnpackedFloat.unpack .binary64 (packComponents .binary64 sign scale (.ofNat 52 mantissa)) =
      .finite sign mantissa (scale.toNat - 1075) positive := by
  -- Neither of the two special scales is met.
  have notGreatest : scale ≠ -1#11 := fun same => finite (by rw [same]; rfl)
  have notLeast : scale ≠ 0#11 := fun same => above (by rw [same]; rfl)
  have bias : (Format.binary64.exponentBias : Int) + (52 : Nat) = 1075 := rfl
  unfold UnpackedFloat.unpack
  simp only [unpackMantissa_packComponents, unpackExponent_packComponents,
    unpackSign_packComponents, Sign.ofBitVec_toBitVec, notGreatest, notLeast, if_false,
    toNat_append_ofNat full narrow, bias]

/-- Parts with the least scale are unpacked without a leading digit. -/
theorem unpack_subnormal {sign : Sign} {mantissa : Nat} (positive : 0 < mantissa)
    (narrow : mantissa < 2 ^ 52) :
    UnpackedFloat.unpack .binary64 (packComponents .binary64 sign 0#11 (.ofNat 52 mantissa)) =
      .finite sign mantissa leastExponent positive := by
  -- All digits of the significand are written, and some of them is not zero.
  have digits : (BitVec.ofNat 52 mantissa).toNat = mantissa := by
    rw [BitVec.toNat_ofNat, Nat.mod_eq_of_lt narrow]
  have nonzero : BitVec.ofNat 52 mantissa ≠ 0#52 := by
    intro same
    rw [same] at digits
    exact Nat.ne_of_lt positive digits
  have notGreatest : (0#11 : BitVec 11) ≠ -1#11 := by decide
  unfold UnpackedFloat.unpack
  simp only [unpackMantissa_packComponents, unpackExponent_packComponents,
    unpackSign_packComponents, Sign.ofBitVec_toBitVec, notGreatest, nonzero, if_false, if_true,
    dite_false, digits]
  rfl

/-- What is packed is unpacked again, but beyond the greatest exponent it is infinite. -/
theorem unpack_pack {sign : Sign} {mantissa : Nat} {exponent : Int} (positive : 0 < mantissa)
    (canonical : Canonical mantissa exponent) :
    UnpackedFloat.unpack .binary64
        (UnpackedFloat.pack .binary64 (.finite sign mantissa exponent positive)) =
      if exponent ≤ 971 then .finite sign mantissa exponent positive else .infinity sign := by
  -- The packed scale tells whether the exponent was the least one.
  obtain ⟨narrow, bounded, full⟩ := canonical
  unfold leastExponent at bounded full
  rw [pack_finite]
  by_cases high : exponent ≤ 971
  · have fits : ¬2047 ≤ exponent + 1075 := by omega
    have scale : (BitVec.ofNat 11 (exponent + 1075).toNat).toNat = (exponent + 1075).toNat := by
      rw [BitVec.toNat_ofNat, Nat.mod_eq_of_lt (by omega)]
    simp only [fits, high, if_true, if_false]
    -- A significand has a leading digit exactly if it is full.
    by_cases normal : mantissa.log2 = 52
    · have large : 2 ^ 52 ≤ mantissa := ((Nat.log2_eq_iff (by omega)).mp normal).1
      rw [if_pos normal, unpack_normal positive large narrow (by omega) (by omega)]
      congr 1
      omega
    · have small : mantissa < 2 ^ 52 := by
        have unfull : ¬2 ^ 52 ≤ mantissa := fun large =>
          normal ((Nat.log2_eq_iff (by omega)).mpr ⟨large, narrow⟩)
        omega
      have least : exponent = leastExponent := by
        unfold leastExponent
        omega
      rw [if_neg normal]
      exact least ▸ unpack_subnormal positive small
  · -- Beyond the greatest exponent, only the sign is kept.
    have exceeds : 2047 ≤ exponent + 1075 := by omega
    simp only [exceeds, high, if_true, if_false]
    cases sign <;> rfl

end Formula.Double
