import Formula.Proofs.Double.Nearest
import Formula.Proofs.Double.Pattern
import Formula.Proofs.Double.Sign

/-! Values of doubles: what an operation comes to is the exact result, rounded to the nearest. -/

namespace Formula

/-- The nearest quotient is at most a half away. -/
theorem abs_sub_nearestQuotient_le (numerator : Nat) {denominator : Nat}
    (positive : 0 < denominator) :
    |(numerator / denominator : ℚ) - nearestQuotient numerator denominator| ≤ 1 / 2 := by
  -- The quotient is its whole part and a rest, which decides in which direction it is rounded.
  have below : numerator % denominator < denominator := Nat.mod_lt _ positive
  have divisor : (0 : ℚ) < denominator := by exact_mod_cast positive
  have split : (numerator : ℚ) = denominator * (numerator / denominator : ℕ) +
      (numerator % denominator : ℕ) := by exact_mod_cast (Nat.div_add_mod ..).symm
  set whole := numerator / denominator
  set rest := numerator % denominator
  have parts : (numerator / denominator : ℚ) = whole + rest / denominator := by
    rw [split]
    field_simp
  have rounded : nearestQuotient numerator denominator = whole ∧ 2 * rest ≤ denominator ∨
      nearestQuotient numerator denominator = whole + 1 ∧ denominator ≤ 2 * rest := by
    unfold nearestQuotient
    simp only [Bool.or_eq_true, Bool.and_eq_true, decide_eq_true_eq, beq_iff_eq]
    split_ifs <;> omega
  rw [parts, abs_le]
  -- The rest is at most half of the divisor when it is dropped, and at least half when it counts.
  rcases rounded with ⟨down, less⟩ | ⟨up, more⟩
  · have half : (rest / denominator : ℚ) ≤ 1 / 2 := by
      rw [div_le_div_iff₀ divisor two_pos]
      exact_mod_cast (by omega : rest * 2 ≤ 1 * denominator)
    have nonnegative : (0 : ℚ) ≤ rest / denominator := by positivity
    rw [down]
    constructor <;> linarith
  · have half : (1 / 2 : ℚ) ≤ rest / denominator := by
      rw [div_le_div_iff₀ two_pos divisor]
      exact_mod_cast (by omega : 1 * denominator ≤ rest * 2)
    have short : (rest / denominator : ℚ) ≤ 1 := by
      rw [div_le_one divisor]
      exact_mod_cast below.le
    rw [up]
    push_cast
    constructor <;> linarith

namespace Double

open Float.Model Float.Model.UnpackedFloat

/-- A magnitude with a sign. -/
def signed : Sign → ℚ → ℚ
  | .negative, magnitude => -magnitude
  | .positive, magnitude => magnitude

/-- What the parts of a finite number are worth together. -/
def amount : UnpackedFloat → ℚ
  | .finite sign mantissa exponent _ => signed sign (mantissa * 2 ^ exponent)
  | _ => 0

/-- A zero of either sign is worth nothing. -/
theorem amount_zero (sign : Sign) : amount (.zero sign) = 0 :=
  rfl

/-- The exact value of a finite double. -/
def value (x : Float) : ℚ :=
  amount (parts x)

/-- The least power of two beyond the range of finite doubles. -/
def ceiling : ℚ :=
  2 ^ (1024 : ℤ)

/-- Zero is within the range of doubles. -/
theorem ceiling_pos : 0 < ceiling :=
  zpow_pos two_pos _

/-- A power of two is one with fewer places, shifted by the others. -/
theorem two_zpow_eq {digits : ℕ} {place total : ℤ} (sum : total = digits + place) :
    (2 : ℚ) ^ total = 2 ^ digits * 2 ^ place := by
  -- Exponents of powers of the same base are added.
  rw [sum, zpow_add₀ two_ne_zero, zpow_natCast]

/-- A double is a number rounded to the nearest one, if that is within the range of doubles. -/
def Rounds (number : ℚ) (x : Float) : Prop :=
  ∃ rounded, Nearest number rounded ∧
    if |rounded| < ceiling then x.isFinite = true ∧ value x = rounded else x.isFinite = false

/-- A double is made of parts that are packed into its bits. -/
def MadeOf (z : Float) (u : UnpackedFloat) : Prop :=
  parts z = UnpackedFloat.unpack .binary64 (UnpackedFloat.pack .binary64 u)

/-- Parts of a finite number as a double has them. -/
inductive Proper : UnpackedFloat → Prop where
  | zero {sign : Sign} : Proper (.zero sign)
  | finite {sign : Sign} {mantissa : Nat} {exponent : Int} {positive : 0 < mantissa}
      (canonical : Canonical mantissa exponent) (bounded : exponent ≤ 971) :
      Proper (.finite sign mantissa exponent positive)

/-- A finite double is a zero, or has a significand other than zero. -/
theorem parts_of_finite {x : Float} (finite : x.isFinite = true) :
    (parts x = .zero (sign x) ∧ significand x = 0) ∨
      ∃ positive, parts x = .finite (sign x) (significand x) (exponent x) positive := by
  -- The other kinds of parts are not finite.
  change (parts x).isFinite = true at finite
  rcases parts_cases x with undefined | ⟨infinite, -⟩ | others
  · rw [undefined] at finite
    cases finite
  · rw [infinite] at finite
    cases finite
  · exact others

/-- A finite double has proper parts. -/
theorem proper_parts {x : Float} (finite : x.isFinite = true) : Proper (parts x) := by
  -- A zero is proper whatever its sign.
  rcases parts_of_finite finite with ⟨zero, -⟩ | ⟨positive, found⟩
  · rw [zero]
    exact .zero
  · -- Finite doubles are below the greatest scale.
    have scale := (isFinite_iff x).mp finite
    have few : scaleBits x < 2 ^ 11 := Nat.mod_lt _ (by decide)
    rw [found]
    refine .finite (canonical_significand x) ?_
    unfold exponent
    split_ifs
    · decide
    · omega

/-- A signed number is rounded with its sign. -/
theorem Nearest.signed {number rounded : ℚ} (nearest : Nearest number rounded) (sign : Sign) :
    Nearest (signed sign number) (signed sign rounded) := by
  -- Rounding is symmetric, so that a sign can be put before both.
  cases sign with
  | negative => exact nearest.neg
  | positive => exact nearest

/-- A sign does not change the magnitude. -/
theorem abs_signed (sign : Sign) (number : ℚ) : |signed sign number| = |number| := by
  -- Only a negative sign does anything, and it leaves the magnitude.
  cases sign with
  | negative => exact abs_neg number
  | positive => rfl

/-- Proper parts are worth a number on the grid. -/
theorem Proper.onGrid {u : UnpackedFloat} (proper : Proper u) : OnGrid (amount u) := by
  -- The significand is canonical, and the grid is symmetric.
  cases proper with
  | zero => exact .zero
  | @finite sign mantissa exponent positive canonical bounded =>
    exact ((Nearest.refl (.of_canonical canonical)).signed sign).onGrid

/-- The value of a finite double is its significand at its exponent, with its sign. -/
theorem value_eq {x : Float} (finite : x.isFinite = true) :
    value x = signed (sign x) (significand x * 2 ^ exponent x) := by
  -- A zero has a significand of nothing, and all others have the one that is packed.
  rcases parts_of_finite finite with ⟨zero, nothing⟩ | ⟨positive, found⟩
  · rw [value, zero, nothing, Nat.cast_zero, zero_mul]
    cases sign x with
    | negative => exact neg_zero.symm
    | positive => rfl
  · rw [value, found, amount]

/-- The value of a finite double is on the grid. -/
theorem onGrid_value {x : Float} (finite : x.isFinite = true) : OnGrid (value x) :=
  (proper_parts finite).onGrid

/-- The magnitude of a canonical significand is within the range exactly if its exponent is. -/
theorem canonical_lt_iff {mantissa : Nat} {exponent : Int}
    (canonical : Canonical mantissa exponent) :
    (mantissa * 2 ^ exponent : ℚ) < ceiling ↔ exponent ≤ 971 := by
  have unit : (0 : ℚ) < 2 ^ exponent := by positivity
  constructor
  · -- Beyond the greatest exponent, a full significand is too large.
    intro small
    by_contra high
    have full : (2 : ℚ) ^ 52 ≤ mantissa := by
      exact_mod_cast canonical.full.resolve_right (by unfold leastExponent; omega)
    have large : (2 : ℚ) ^ (972 : ℤ) ≤ 2 ^ exponent :=
      zpow_le_zpow_right₀ one_le_two (by omega)
    have product : ceiling ≤ mantissa * 2 ^ exponent :=
      calc ceiling = 2 ^ 52 * 2 ^ (972 : ℤ) := two_zpow_eq (by decide)
        _ ≤ mantissa * 2 ^ exponent :=
          mul_le_mul full large (zpow_pos two_pos _).le (Nat.cast_nonneg _)
    exact absurd small (not_lt.mpr product)
  · -- Up to the greatest exponent, 53 digits do not reach the range.
    intro low
    have narrow : (mantissa : ℚ) < 2 ^ 53 := by exact_mod_cast canonical.narrow
    have small : (2 : ℚ) ^ exponent ≤ 2 ^ (971 : ℤ) := zpow_le_zpow_right₀ one_le_two low
    calc (mantissa * 2 ^ exponent : ℚ) < 2 ^ 53 * 2 ^ exponent := by gcongr
      _ ≤ 2 ^ 53 * 2 ^ (971 : ℤ) := by gcongr
      _ = ceiling := (two_zpow_eq (by decide)).symm

/-- Proper parts are packed and unpacked without a change. -/
theorem Proper.unpack_pack {u : UnpackedFloat} (proper : Proper u) :
    UnpackedFloat.unpack .binary64 (UnpackedFloat.pack .binary64 u) = u := by
  -- The exponent is within bounds, so that nothing is packed as infinity.
  cases proper with
  | @zero sign => cases sign <;> rfl
  | @finite sign mantissa exponent positive canonical bounded =>
    rw [Double.unpack_pack positive canonical, if_pos bounded]

/-- Proper parts are worth less than the range of doubles. -/
theorem Proper.amount_lt {u : UnpackedFloat} (proper : Proper u) : |amount u| < ceiling := by
  -- The exponent is bounded, and the significand is canonical.
  cases proper with
  | zero =>
    rw [amount_zero, abs_zero]
    exact ceiling_pos
  | @finite sign mantissa exponent positive canonical bounded =>
    rw [amount, abs_signed, abs_of_nonneg (by positivity)]
    exact (canonical_lt_iff canonical).mpr bounded

/-- A double with the parts of a finite number has its value. -/
theorem value_of_parts {z : Float} {u : UnpackedFloat} (found : parts z = u)
    (finite : u.isFinite = true) : z.isFinite = true ∧ value z = amount u := by
  -- Both what is finite and what it is worth are told by the parts.
  refine ⟨?_, congrArg amount found⟩
  change (parts z).isFinite = true
  rw [found, finite]

/-- Proper parts that are packed make a double of the same value. -/
theorem Proper.rounds {u : UnpackedFloat} (proper : Proper u) {z : Float} (made : MadeOf z u) :
    Rounds (amount u) z := by
  -- Proper parts are on the grid and within the range, so that nothing is rounded.
  rw [MadeOf, proper.unpack_pack] at made
  refine ⟨amount u, .refl proper.onGrid, ?_⟩
  rw [if_pos proper.amount_lt]
  exact value_of_parts made (by cases proper <;> rfl)

/-- The nearest quotient at the place where it is rounded is the nearest number. -/
theorem RoundedAt.nearest {numerator denominator excess : Nat} {exponent : Int}
    (positive : 0 < denominator) (rounded : RoundedAt numerator denominator exponent excess) :
    Nearest (numerator / denominator * 2 ^ exponent)
      (nearestQuotient numerator (denominator * 2 ^ excess) * 2 ^ (exponent + excess)) := by
  -- A multiple of the unit is nearest if it is at most half a unit away.
  have divisor : (0 : ℚ) < denominator := by exact_mod_cast positive
  have unit : (0 : ℚ) < 2 ^ (exponent + excess) := by positivity
  have close := abs_sub_nearestQuotient_le numerator
    (show 0 < denominator * 2 ^ excess by positivity)
  -- In units of the place, the number is the quotient that is rounded.
  have scaled : (numerator / denominator * 2 ^ exponent : ℚ) =
      numerator / (denominator * 2 ^ excess : ℕ) * 2 ^ (exponent + excess) := by
    rw [zpow_add₀ two_ne_zero, zpow_natCast]
    push_cast
    field_simp
  rw [scaled, ← Int.cast_natCast (nearestQuotient numerator (denominator * 2 ^ excess))]
  refine .of_half_unit rounded.bounded ?_ (rounded.full.imp_right fun full => ?_) ?_
  · rw [Nat.abs_cast]
    exact_mod_cast rounded.narrow
  · have digits : (2 ^ 52 : ℚ) ≤ numerator / (denominator * 2 ^ excess : ℕ) := by
      rw [le_div_iff₀ (by positivity)]
      exact_mod_cast full
    gcongr
  · rw [Int.cast_natCast, ← sub_mul, abs_mul, abs_of_pos unit]
    calc _ ≤ 1 / 2 * (2 : ℚ) ^ (exponent + excess) := by gcongr
      _ = 2 ^ (exponent + excess) / 2 := by ring

/-- A quotient that is rounded and packed makes the nearest double. -/
theorem rounds_quotient {sign : Sign} {numerator denominator : Nat} {exponent : Int}
    (positive : 0 < denominator)
    (wide : 2 ^ 52 ≤ numerator / denominator ∨ exponent ≤ leastExponent) {z : Float}
    (made : MadeOf z (roundWithAccuracy .binary64 sign (numerator / denominator) exponent
      (accuracyOfFraction (numerator % denominator) denominator))) :
    Rounds (signed sign (numerator / denominator * 2 ^ exponent)) z := by
  -- What is rounded is the magnitude, and the sign is put before it.
  have nearest := (roundedAt_excessPlaces positive wide).nearest positive
  refine ⟨_, nearest.signed sign, ?_⟩
  rw [abs_signed, abs_of_nonneg (by positivity)]
  rcases roundWithAccuracy_quotient sign positive wide rfl with
    ⟨zero, result⟩ | ⟨-, mantissa, carry, some, whole, canonical, result⟩
  · -- A number that is rounded to zero is worth nothing with either sign.
    rw [MadeOf, result, (Proper.zero).unpack_pack] at made
    rw [zero, Nat.cast_zero, zero_mul, if_pos ceiling_pos]
    obtain ⟨finite, worth⟩ := value_of_parts made rfl
    refine ⟨finite, worth.trans ?_⟩
    cases sign <;> simp [amount, signed]
  · -- Otherwise the canonical significand is within the range of doubles or not.
    have same : (nearestQuotient numerator (denominator *
        2 ^ excessPlaces (numerator / denominator) exponent) *
          2 ^ (exponent + excessPlaces (numerator / denominator) exponent) : ℚ) =
        mantissa * 2 ^ (exponent + excessPlaces (numerator / denominator) exponent + carry) := by
      rw [whole, zpow_add₀ two_ne_zero _ (carry : ℤ), zpow_natCast]
      push_cast
      ring
    rw [MadeOf, result, unpack_pack some canonical] at made
    rw [same]
    simp only [canonical_lt_iff canonical]
    split_ifs with low
    · rw [if_pos low] at made
      exact value_of_parts made rfl
    · rw [if_neg low] at made
      change (parts z).isFinite = false
      rw [made]
      rfl

/-- A whole number that is rounded and packed makes the nearest double. -/
theorem rounds_exact {sign : Sign} {mantissa : Nat} {exponent : Int}
    (wide : 2 ^ 52 ≤ mantissa ∨ exponent ≤ leastExponent) {z : Float}
    (made : MadeOf z (roundWithAccuracy .binary64 sign mantissa exponent .exact)) :
    Rounds (signed sign (mantissa * 2 ^ exponent)) z := by
  -- A whole number is a quotient by one.
  have quotient := @rounds_quotient sign mantissa 1 exponent Nat.one_pos (by rwa [Nat.div_one]) z
  rw [Nat.div_one, accuracyOfFraction_one, Nat.cast_one, div_one] at quotient
  exact quotient made

/-- A product has the product of the signs. -/
theorem signed_mul (first second : Sign) (m n : ℚ) :
    signed (first * second) (m * n) = signed first m * signed second n := by
  -- Each pair of signs has its own law for products.
  cases first <;> cases second
  · exact (neg_mul_neg m n).symm
  · exact (neg_mul m n).symm
  · exact (mul_neg m n).symm
  · rfl

variable {u v : UnpackedFloat} {z : Float}

/-- The product of proper parts is rounded to the nearest double. -/
theorem rounds_mul_parts (first : Proper u) (second : Proper v)
    (made : MadeOf z (.mul .binary64 u v)) : Rounds (amount u * amount v) z := by
  -- A zero makes the product a zero, which is exact.
  cases first with
  | zero =>
    rw [amount_zero, zero_mul]
    cases second <;> exact Proper.zero.rounds made
  | @finite sign m d positive canonical bounded =>
    cases second with
    | zero =>
      rw [amount_zero, mul_zero]
      exact Proper.zero.rounds made
    | @finite other n e positiveOther canonicalOther boundedOther =>
      -- The product of the significands is rounded at the sum of the exponents.
      have product := rounds_exact (canonical.wide_mul canonicalOther positive positiveOther) made
      have split : (((m * n : ℕ) : ℚ) * 2 ^ (d + e)) = m * 2 ^ d * (n * 2 ^ e) := by
        rw [zpow_add₀ two_ne_zero]
        push_cast
        ring
      rwa [split, signed_mul] at product

/-- A significand with places appended, at the exponent below it, is worth the same. -/
theorem shiftLeft_zpow (m k : Nat) (e : Int) :
    ((m <<< k : ℕ) : ℚ) * 2 ^ (e - k) = m * 2 ^ e := by
  -- Each place that is appended doubles the significand and halves the unit.
  rw [Nat.shiftLeft_eq, zpow_sub₀ two_ne_zero, zpow_natCast]
  push_cast
  field_simp

/-- A whole number with any exponent makes the nearest double, with as many places as it needs. -/
theorem rounds_round {sign : Sign} {mantissa : Nat} {exponent : Int} (positive : 0 < mantissa)
    (made : MadeOf z (UnpackedFloat.round .binary64 sign mantissa exponent)) :
    Rounds (signed sign (mantissa * 2 ^ exponent)) z := by
  -- Places are appended until there are enough of them, or until the least exponent.
  set target := Format.binary64.targetExponent (totalExponent mantissa exponent) with aimed
  have goal : target = max (mantissa.log2 - 52 + exponent) leastExponent := by
    simp only [aimed, Format.targetExponent, totalExponent, Format.mantissaBits,
      Format.minExponent, leastExponent]
    omega
  set places := (exponent - target).toNat with appended
  have wide : 2 ^ 52 ≤ mantissa <<< places ∨ exponent - places ≤ leastExponent := by
    by_cases low : exponent - places ≤ leastExponent
    · exact .inr low
    · have long : 52 ≤ mantissa.log2 + places := by omega
      have leading : 2 ^ mantissa.log2 ≤ mantissa := Nat.log2_self_le (by omega)
      refine .inl ?_
      rw [Nat.shiftLeft_eq]
      calc 2 ^ 52 ≤ 2 ^ (mantissa.log2 + places) := Nat.pow_le_pow_right (by decide) long
        _ = 2 ^ mantissa.log2 * 2 ^ places := Nat.pow_add ..
        _ ≤ mantissa * 2 ^ places := Nat.mul_le_mul_right _ leading
  have rounded := rounds_exact wide made
  rwa [shiftLeft_zpow] at rounded

/-- A whole number of either sign makes the nearest double. -/
theorem rounds_normalize {mantissa exponent : Int} {zeroSign : Sign}
    (made : MadeOf z (UnpackedFloat.normalize .binary64 mantissa exponent zeroSign)) :
    Rounds (mantissa * 2 ^ exponent) z := by
  -- Parts are rounded as a magnitude with the sign of the number.
  unfold UnpackedFloat.normalize at made
  rcases Int.lt_trichotomy mantissa 0 with negative | zero | positive
  · have order : compare mantissa 0 = .lt := Int.compare_eq_lt.mpr negative
    rw [order] at made
    have rounded := rounds_round (by omega) made
    have magnitude : (((-mantissa).toNat : ℕ) : ℚ) = -mantissa := by
      exact_mod_cast Int.toNat_of_nonneg (by omega : 0 ≤ -mantissa)
    rw [magnitude] at rounded
    simpa [signed] using rounded
  · subst zero
    rw [Int.cast_zero, zero_mul]
    exact Proper.zero.rounds made
  · have order : compare mantissa 0 = .gt := Int.compare_eq_gt.mpr positive
    rw [order] at made
    have rounded := rounds_round (by omega) made
    have magnitude : ((mantissa.toNat : ℕ) : ℚ) = mantissa := by
      exact_mod_cast Int.toNat_of_nonneg positive.le
    rwa [magnitude] at rounded

/-- A significand that is brought down to a smaller exponent is worth the same with its sign. -/
theorem apply_shiftLeft (sign : Sign) (mantissa : Nat) {exponent smaller : Int}
    (below : smaller ≤ exponent) :
    (sign.apply (mantissa <<< (exponent - smaller).toNat : ℕ) : ℚ) * 2 ^ smaller =
      signed sign (mantissa * 2 ^ exponent) := by
  -- The shift is by as many places as the exponents differ.
  have place : exponent - ((exponent - smaller).toNat : ℤ) = smaller := by omega
  have same := shiftLeft_zpow mantissa (exponent - smaller).toNat exponent
  rw [place] at same
  cases sign with
  | negative => rw [Sign.apply, signed, Int.cast_neg, Int.cast_natCast, neg_mul, same]
  | positive => rw [Sign.apply, signed, Int.cast_natCast, same]

/-- The sum of proper parts is rounded to the nearest double. -/
theorem rounds_add_parts (first : Proper u) (second : Proper v)
    (made : MadeOf z (.add .binary64 u v)) : Rounds (amount u + amount v) z := by
  -- A zero leaves the other summand as it is.
  cases first with
  | @zero sign =>
    rw [amount_zero, zero_add]
    cases second with
    | @zero other =>
      -- The sum of zeros is a zero of one of both signs.
      have result : UnpackedFloat.add .binary64 (.zero sign) (.zero other) =
          .zero (if sign == other then sign else .positive) := by
        cases sign <;> cases other <;> rfl
      rw [result] at made
      rw [amount_zero]
      exact Proper.zero.rounds made
    | finite canonical bounded => exact (Proper.finite canonical bounded).rounds made
  | @finite sign m d positive canonical bounded =>
    cases second with
    | zero =>
      rw [amount_zero, add_zero]
      exact (Proper.finite canonical bounded).rounds made
    | @finite other n e positiveOther canonicalOther boundedOther =>
      -- Both significands are brought down to the smaller exponent, and added there.
      have sum := rounds_normalize made
      rwa [Int.cast_add, add_mul, apply_shiftLeft sign m (Int.min_le_left d e),
        apply_shiftLeft other n (Int.min_le_right d e)] at sum

/-- A difference is the sum with what is negated. -/
theorem sub_eq_add_parts (u v : UnpackedFloat) :
    UnpackedFloat.sub .binary64 u v = .add .binary64 u v.neg := by
  -- Both are carried out alike, but for finite numbers that are added with their signs.
  cases u with
  | notANumber => rfl
  | infinity sign => cases v <;> rfl
  | zero sign => cases v <;> rfl
  | finite sign m d positive =>
    cases v with
    | notANumber | infinity other | zero other => rfl
    | finite other n e positiveOther =>
      have negated (number : ℤ) : (-other).apply number = -other.apply number := by
        cases other with
        | negative => exact (Int.neg_neg number).symm
        | positive => rfl
      change UnpackedFloat.normalize .binary64 (sign.apply _ - other.apply _) _ _ =
        UnpackedFloat.normalize .binary64 (sign.apply _ + (-other).apply _) _ _
      rw [negated, Int.sub_eq_add_neg]

/-- Negated parts are proper, and worth as much below zero as before above it. -/
theorem Proper.neg (proper : Proper u) : Proper u.neg ∧ amount u.neg = -amount u := by
  -- Negation changes the sign alone.
  cases proper with
  | zero => exact ⟨.zero, neg_zero.symm⟩
  | @finite sign m d positive canonical bounded =>
    refine ⟨.finite canonical bounded, ?_⟩
    cases sign with
    | negative => exact (neg_neg _).symm
    | positive => rfl

/-- Before a division, as many places are appended as make the quotient long enough. -/
theorem divCore_cases {m n : Nat} (d e : Int) (positive : 0 < m) (positiveOther : 0 < n) :
    ∃ places : Nat, divCore .binary64 m d n e =
        (m <<< places / n, d - e - places, accuracyOfFraction (m <<< places % n) n) ∧
      (2 ^ 52 ≤ m <<< places / n ∨ d - e - places ≤ leastExponent) := by
  -- As many places are appended as lead from the difference of the exponents to the target.
  set target := min (d - e)
    (Format.binary64.targetExponent (totalExponent m d - totalExponent n e)) with aimed
  have goal : target = min (d - e) (max (m.log2 - n.log2 + (d - e) - 53) leastExponent) := by
    simp only [aimed, Format.targetExponent, totalExponent, Format.mantissaBits,
      Format.minExponent, leastExponent]
    omega
  have place : d - e - ((d - e - target).toNat : ℤ) = target := by omega
  refine ⟨(d - e - target).toNat, ?_, ?_⟩
  · rw [place]
    rfl
  · rw [place]
    by_cases low : target ≤ leastExponent
    · exact .inr low
    · -- The dividend has at least 53 digits more than the divisor.
      have long : 52 + (n.log2 + 1) ≤ m.log2 + (d - e - target).toNat := by omega
      have leading : 2 ^ m.log2 ≤ m := Nat.log2_self_le (by omega)
      have short : n ≤ 2 ^ (n.log2 + 1) := Nat.lt_log2_self.le
      refine .inl ?_
      rw [Nat.le_div_iff_mul_le positiveOther, Nat.shiftLeft_eq]
      calc 2 ^ 52 * n ≤ 2 ^ 52 * 2 ^ (n.log2 + 1) := Nat.mul_le_mul_left _ short
        _ = 2 ^ (52 + (n.log2 + 1)) := (Nat.pow_add ..).symm
        _ ≤ 2 ^ (m.log2 + (d - e - target).toNat) := Nat.pow_le_pow_right (by decide) long
        _ = 2 ^ m.log2 * 2 ^ (d - e - target).toNat := Nat.pow_add ..
        _ ≤ m * 2 ^ (d - e - target).toNat := Nat.mul_le_mul_right _ leading

/-- A quotient has the quotient of the signs. -/
theorem signed_div (first second : Sign) (m n : ℚ) :
    signed (first / second) (m / n) = signed first m / signed second n := by
  -- Each pair of signs has its own law for quotients.
  cases first <;> cases second
  · exact (neg_div_neg_eq m n).symm
  · exact (neg_div n m).symm
  · exact (div_neg m).symm
  · rfl

/-- The quotient of proper parts is rounded to the nearest double. -/
theorem rounds_div_parts (first : Proper u) (second : Proper v) (nonzero : amount v ≠ 0)
    (made : MadeOf z (.div .binary64 u v)) : Rounds (amount u / amount v) z := by
  -- The divisor is not zero, and a dividend that is zero makes an exact zero.
  cases second with
  | zero => exact absurd rfl nonzero
  | @finite other n e positiveOther canonicalOther boundedOther =>
    cases first with
    | zero =>
      rw [amount_zero, zero_div]
      exact Proper.zero.rounds made
    | @finite sign m d positive canonical bounded =>
      -- The dividend has places appended, which the exponent makes up for.
      obtain ⟨places, core, wide⟩ := divCore_cases d e positive positiveOther
      have made : MadeOf z (roundWithAccuracy .binary64 (sign / other) (m <<< places / n)
          (d - e - places) (accuracyOfFraction (m <<< places % n) n)) := by
        simpa only [UnpackedFloat.div, core] using made
      have quotient := rounds_quotient positiveOther wide made
      have split : (((m <<< places : ℕ) : ℚ) / n * 2 ^ (d - e - places)) =
          m * 2 ^ d / (n * 2 ^ e) := by
        rw [div_mul_eq_mul_div, shiftLeft_zpow, zpow_sub₀ two_ne_zero]
        field_simp
      rwa [split, signed_div] at quotient

section

variable {x y : Float} {number bound : ℚ}

/-- What is rounded to a finite double has its value for the nearest number. -/
theorem Rounds.nearest (rounds : Rounds number x) (finite : x.isFinite = true) :
    Nearest number (value x) := by
  -- A number that is rounded beyond the range makes no finite double.
  obtain ⟨rounded, nearest, result⟩ := rounds
  split_ifs at result with within
  · rw [result.2]
    exact nearest
  · rw [finite] at result
    cases result

/-- What is no larger than a number on the grid that is within the range is rounded within it. -/
theorem Rounds.isFinite (rounds : Rounds number x) (onGrid : OnGrid bound)
    (inRange : bound < ceiling) (within : |number| ≤ bound) : x.isFinite = true := by
  -- Rounding does not pass the bound, which is within the range.
  obtain ⟨rounded, nearest, result⟩ := rounds
  rw [if_pos ((nearest.magnitude_le onGrid within).trans_lt inRange)] at result
  exact result.1

/-- What lies between two numbers on the grid, within the range, is rounded between them. -/
theorem Rounds.mem_uIcc {first second : ℚ} (rounds : Rounds number x) (onGrid : OnGrid first)
    (onGridOther : OnGrid second) (inRange : |first| < ceiling) (inRangeOther : |second| < ceiling)
    (within : number ∈ Set.uIcc first second) :
    x.isFinite = true ∧ value x ∈ Set.uIcc first second := by
  -- The magnitude is at most that of one of both ends.
  have finite : x.isFinite = true := by
    rcases le_max_iff.mp (abs_le_max_of_mem_uIcc within) with less | less
    · exact rounds.isFinite onGrid.magnitude inRange less
    · exact rounds.isFinite onGridOther.magnitude inRangeOther less
  exact ⟨finite, (rounds.nearest finite).mem_uIcc onGrid onGridOther within⟩

/-- The sum of two finite doubles is rounded to the nearest double. -/
theorem rounds_add (left : x.isFinite = true) (right : y.isFinite = true) :
    Rounds (value x + value y) (x + y) :=
  rounds_add_parts (proper_parts left) (proper_parts right) rfl

/-- The difference of two finite doubles is rounded to the nearest double. -/
theorem rounds_sub (left : x.isFinite = true) (right : y.isFinite = true) :
    Rounds (value x - value y) (x - y) := by
  -- The difference is made of the sum of the parts, with the second ones negated.
  obtain ⟨negated, worth⟩ := (proper_parts right).neg
  have made : MadeOf (x - y) (.add .binary64 (parts x) (parts y).neg) := by
    rw [← sub_eq_add_parts]
    rfl
  have sum := rounds_add_parts (proper_parts left) negated made
  rwa [worth, ← sub_eq_add_neg] at sum

/-- The product of two finite doubles is rounded to the nearest double. -/
theorem rounds_mul (left : x.isFinite = true) (right : y.isFinite = true) :
    Rounds (value x * value y) (x * y) :=
  rounds_mul_parts (proper_parts left) (proper_parts right) rfl

/-- The quotient of two finite doubles is rounded to the nearest double, if there is one. -/
theorem rounds_div (left : x.isFinite = true) (right : y.isFinite = true)
    (nonzero : value y ≠ 0) : Rounds (value x / value y) (x / y) :=
  rounds_div_parts (proper_parts left) (proper_parts right) nonzero rfl

end

end Double

end Formula
