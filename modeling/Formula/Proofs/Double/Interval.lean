import Formula.Proofs.Double.Alike

/-! Rounded arithmetic keeps the order of its operands, and needs finite operands. -/

namespace Formula.Double

open Float.Model Float.Model.UnpackedFloat

/-- Rounding keeps the order of different numbers. -/
theorem Nearest.le_of_lt {number other rounded roundedOther : ℚ} (nearest : Nearest number rounded)
    (nearestOther : Nearest other roundedOther) (below : number < other) :
    rounded ≤ roundedOther := by
  -- If they were to cross, both numbers would have to be on the far side of the middle.
  by_contra crossed
  have first := sq_le_sq.mpr (nearest.nearest roundedOther nearestOther.onGrid)
  have second := sq_le_sq.mpr (nearestOther.nearest rounded nearest.onGrid)
  have above : rounded + roundedOther ≤ 2 * number := by nlinarith
  have under : 2 * other ≤ rounded + roundedOther := by nlinarith
  linarith

section

variable {x y z : Float} {number other first : ℚ}

/-- A finite double is worth less than the range of doubles. -/
theorem abs_value_lt (finite : x.isFinite = true) : |value x| < ceiling :=
  -- A finite double is made of proper parts, whose exponent is bounded.
  (proper_parts finite).amount_lt

/-- Zero is within the range of doubles on both sides. -/
theorem abs_zero_lt : |(0 : ℚ)| < ceiling := by
  rw [abs_zero]
  exact ceiling_pos

/-- The rank of a finite double is its value. -/
theorem rank_eq_value (finite : x.isFinite = true) : rank x = value x :=
  -- Only infinite doubles have a rank other than their value.
  (proper_parts finite).rank_eq

/-- Finite doubles are equal exactly if their values are. -/
theorem beq_iff_value (left : x.isFinite = true) (right : y.isFinite = true) :
    (x == y) = true ↔ value x = value y := by
  -- Finite doubles are defined, and their ranks are their values.
  rw [beq_iff_rank (isNaN_of_isFinite left) (isNaN_of_isFinite right), rank_eq_value left,
    rank_eq_value right]

/-- What is like a finite double is finite, and has its value. -/
theorem Alike.value_eq (alike : Alike x y) (finite : y.isFinite = true) :
    x.isFinite = true ∧ value x = value y := by
  -- The doubles are the same, or both are zeros, which are worth nothing.
  rcases alike.eq_or with rfl | ⟨rfl | rfl, rfl | rfl⟩
  · exact ⟨finite, rfl⟩
  all_goals exact ⟨rfl, rfl⟩

/-- A number on the grid within the range is not changed by rounding. -/
theorem Rounds.value_eq (rounds : Rounds number x) (onGrid : OnGrid number)
    (inRange : |number| < ceiling) : x.isFinite = true ∧ value x = number := by
  -- The number lies between itself and itself, both of them on the grid.
  obtain ⟨finite, worth⟩ := rounds.mem_uIcc onGrid onGrid inRange inRange Set.left_mem_uIcc
  exact ⟨finite, by simpa using worth⟩

/--
What lies on the way to another number is rounded to a double on the way to that one's.

Equal numbers may be rounded apart, for a tie is left open here: their doubles have to be alike.
-/
theorem Rounds.mem_uIcc_of_alike (rounds : Rounds number x) (roundsOther : Rounds other y)
    (finite : y.isFinite = true) (onGrid : OnGrid first) (inRange : |first| < ceiling)
    (within : number ∈ Set.uIcc first other) (same : number = other → Alike x y) :
    x.isFinite = true ∧ value x ∈ Set.uIcc first (value y) := by
  -- Different numbers are rounded in their order, and equal ones come to like doubles.
  by_cases equal : number = other
  · obtain ⟨finiteToo, worth⟩ := (same equal).value_eq finite
    rw [worth]
    exact ⟨finiteToo, Set.right_mem_uIcc⟩
  · obtain ⟨rounded, nearest, result⟩ := rounds
    have nearestOther := roundsOther.nearest finite
    have between : rounded ∈ Set.uIcc first (value y) := by
      rcases Set.mem_uIcc.mp within with ⟨above, below⟩ | ⟨above, below⟩
      · have order := nearest.le_of_lt nearestOther (lt_of_le_of_ne below equal)
        exact Set.mem_uIcc.mpr (.inl ⟨nearest.ge onGrid above, order⟩)
      · have order := nearestOther.le_of_lt nearest (lt_of_le_of_ne above (Ne.symm equal))
        exact Set.mem_uIcc.mpr (.inr ⟨order, nearest.le onGrid below⟩)
    -- What lies between two doubles is within the range.
    have small : |rounded| < ceiling :=
      (abs_le_max_of_mem_uIcc between).trans_lt (max_lt inRange (abs_value_lt finite))
    rw [if_pos small] at result
    rw [result.2]
    exact ⟨result.1, between⟩

/-- Finite doubles of the same value are alike. -/
theorem alike_of_value_eq (left : x.isFinite = true) (right : y.isFinite = true)
    (same : value x = value y) : Alike x y :=
  .inl ((beq_iff_value left right).mpr same)

/-- What is nearer to zero makes a sum that is nearer to the other summand. -/
theorem add_mem_uIcc (left : x.isFinite = true) (right : y.isFinite = true)
    (finite : z.isFinite = true) (sum : (y + z).isFinite = true)
    (within : value x ∈ Set.uIcc 0 (value y)) :
    (x + z).isFinite = true ∧ value (x + z) ∈ Set.uIcc (value z) (value (y + z)) := by
  -- Adding the same number to all of them shifts the interval.
  have shifted := Set.mem_image_of_mem (· + value z) within
  rw [Set.image_add_const_uIcc, zero_add] at shifted
  refine (rounds_add left finite).mem_uIcc_of_alike (rounds_add right finite) sum
    (onGrid_value finite) (abs_value_lt finite) shifted ?_
  intro equal
  exact (alike_of_value_eq left right (add_right_cancel equal)).add (.refl z)

/-- What is nearer to zero makes a product that is nearer to zero. -/
theorem mul_mem_uIcc (left : x.isFinite = true) (right : y.isFinite = true)
    (finite : z.isFinite = true) (product : (y * z).isFinite = true)
    (within : value x ∈ Set.uIcc 0 (value y)) :
    (x * z).isFinite = true ∧ value (x * z) ∈ Set.uIcc 0 (value (y * z)) := by
  have rounds := rounds_mul left finite
  by_cases nothing : value z = 0
  · -- Both products are zero.
    rw [nothing, mul_zero] at rounds
    obtain ⟨finiteProduct, worth⟩ := rounds.value_eq .zero abs_zero_lt
    rw [worth]
    exact ⟨finiteProduct, Set.left_mem_uIcc⟩
  · -- Any other factor stretches the interval away from zero.
    have scaled := Set.mem_image_of_mem (· * value z) within
    rw [Set.image_mul_const_uIcc, zero_mul] at scaled
    refine rounds.mem_uIcc_of_alike (rounds_mul right finite) product .zero abs_zero_lt scaled ?_
    intro equal
    exact (alike_of_value_eq left right (mul_right_cancel₀ nothing equal)).mul (.refl z)

end

section

variable {u v : UnpackedFloat} {x y : Float}

/-- Doubles are ordered as their parts are. -/
theorem le_iff_parts (x y : Float) : x ≤ y ↔ (parts x).le (parts y) = true := by
  -- Doubles are compared through their parts.
  change decide ((parts x).le (parts y) = true) = true ↔ _
  exact decide_eq_true_iff

/-- Only doubles that are defined are in order, equal or not. -/
theorem isNaN_of_le (order : x ≤ y) : x.isNaN = false ∧ y.isNaN = false := by
  -- With undefined parts on either side, the comparison has no result.
  rw [le_iff_parts] at order
  have defined (z : Float) : z.isNaN = (parts z).isNaN := rfl
  rw [defined, defined]
  generalize parts x = u, parts y = v at order
  cases u <;> cases v <;> first | exact ⟨rfl, rfl⟩ | cases order

/-- A double that is at most another has at most its rank. -/
theorem rank_le_of_le (order : x ≤ y) : rank x ≤ rank y := by
  -- Both are defined, so that the order is that of their ranks.
  obtain ⟨left, right⟩ := isNaN_of_le order
  rw [le_iff_parts, UnpackedFloat.le, compare_rank left right] at order
  simpa [Ordering.isLE_iff_ne_gt, compare_gt_iff_gt] using order

/-- A double with proper parts is finite. -/
theorem isFinite_of_proper (proper : Proper (parts x)) : x.isFinite = true := by
  -- Zeros and finite numbers are the proper parts.
  change (parts x).isFinite = true
  generalize parts x = w at proper
  cases proper <;> rfl

/-- A defined double is finite if its rank is within the range. -/
theorem isFinite_of_rank (defined : x.isNaN = false) (inRange : |rank x| < ceiling) :
    x.isFinite = true := by
  rcases parts_kinds x with undefined | ⟨sign, infinite⟩ | proper
  · rw [isNaN_iff.mpr undefined] at defined
    cases defined
  · -- The infinite doubles have the rank of the end of the range.
    have large : |signed sign ceiling| = ceiling := by
      rw [abs_signed, abs_of_pos ceiling_pos]
    rw [rank, infinite, rankOfParts, large] at inRange
    exact absurd inRange (lt_irrefl _)
  · exact isFinite_of_proper proper

/-- What lies between two finite doubles is finite. -/
theorem Between.isFinite {a b : Float} (within : Between a b x) (left : a.isFinite = true)
    (right : b.isFinite = true) : x.isFinite = true := by
  -- The rank lies between those of the ends, and so within the range.
  have bounded {c d : Float} (above : c ≤ x) (below : x ≤ d) (first : c.isFinite = true)
      (last : d.isFinite = true) : x.isFinite = true := by
    have lower := rank_le_of_le above
    have upper := rank_le_of_le below
    rw [rank_eq_value first] at lower
    rw [rank_eq_value last] at upper
    have inRange := abs_lt.mp (abs_value_lt first)
    have inRangeOther := abs_lt.mp (abs_value_lt last)
    exact isFinite_of_rank (isNaN_of_le above).2 (abs_lt.mpr ⟨by linarith, by linarith⟩)
  -- Either end may be the lower one.
  rcases within with ⟨above, below⟩ | ⟨above, below⟩
  · exact bounded above below left right
  · exact bounded above below right left

/-- What is not finite has no finite sums, products and quotients. -/
theorem isFinite_arithmetic (infinite : u.isFinite = false) (v : UnpackedFloat) :
    (UnpackedFloat.add .binary64 u v).isFinite = false ∧
      (UnpackedFloat.mul .binary64 u v).isFinite = false ∧
      (UnpackedFloat.mul .binary64 v u).isFinite = false ∧
      (UnpackedFloat.div .binary64 u v).isFinite = false := by
  -- What is undefined stays so in every operation.
  cases u with
  | zero | finite => cases infinite
  | notANumber => cases v <;> exact ⟨rfl, rfl, rfl, rfl⟩
  | infinity sign =>
    -- Infinity takes the sign of a product, and against itself or zero it is undefined.
    cases v with
    | infinity other => cases sign <;> cases other <;> exact ⟨rfl, rfl, rfl, rfl⟩
    | notANumber | zero | finite => exact ⟨rfl, rfl, rfl, rfl⟩

/-- A finite double is made of finite parts. -/
theorem isFinite_of_made {z : Float} (made : MadeOf z u) (finite : z.isFinite = true) :
    u.isFinite = true := by
  -- Infinite and undefined parts are packed as what they are.
  change (parts z).isFinite = true at finite
  rw [made] at finite
  cases u with
  | zero | finite => rfl
  | notANumber => cases finite
  | infinity sign => cases sign <;> cases finite

/-- A finite sum has a finite first summand. -/
theorem isFinite_of_add (finite : (x + y).isFinite = true) : x.isFinite = true := by
  -- The bits of the sum are packed from the sum of the parts, which has to be finite.
  have made : MadeOf (x + y) (.add .binary64 (parts x) (parts y)) := rfl
  have sum := isFinite_of_made made finite
  by_contra infinite
  have none := (isFinite_arithmetic (Bool.eq_false_iff.mpr infinite) (parts y)).1
  exact absurd sum (Bool.eq_false_iff.mp none)

/-- A finite product has finite factors. -/
theorem isFinite_of_mul (finite : (x * y).isFinite = true) :
    x.isFinite = true ∧ y.isFinite = true := by
  -- The same is said of both factors, since infinity on either side is kept.
  have made : MadeOf (x * y) (.mul .binary64 (parts x) (parts y)) := rfl
  have product := isFinite_of_made made finite
  constructor
  · by_contra infinite
    have none := (isFinite_arithmetic (Bool.eq_false_iff.mpr infinite) (parts y)).2.1
    exact absurd product (Bool.eq_false_iff.mp none)
  · by_contra infinite
    have none := (isFinite_arithmetic (Bool.eq_false_iff.mpr infinite) (parts x)).2.2.1
    exact absurd product (Bool.eq_false_iff.mp none)

/-- A finite quotient has a finite numerator. -/
theorem isFinite_of_div (finite : (x / y).isFinite = true) : x.isFinite = true := by
  -- An infinite numerator leaves an infinite quotient, or none.
  have made : MadeOf (x / y) (.div .binary64 (parts x) (parts y)) := rfl
  have quotient := isFinite_of_made made finite
  by_contra infinite
  have none := (isFinite_arithmetic (Bool.eq_false_iff.mpr infinite) (parts y)).2.2.2
  exact absurd quotient (Bool.eq_false_iff.mp none)

/-- A divisor that leaves a finite quotient is a nonzero number, or one that makes all vanish. -/
theorem divisor_cases (finite : (x / y).isFinite = true) :
    (y.isFinite = true ∧ value y ≠ 0) ∨
      ∀ z : Float, z.isFinite = true → (z / y).isFinite = true ∧ value (z / y) = 0 := by
  -- What the divisor can be is told by its kind.
  have made : MadeOf (x / y) (.div .binary64 (parts x) (parts y)) := rfl
  have quotient := isFinite_of_made made finite
  -- An undefined divisor leaves no quotient at all.
  rcases parts_kinds y with undefined | ⟨sign, infinite⟩ | proper
  · rw [undefined] at quotient
    generalize parts x = u at quotient
    cases u <;> cases quotient
  · -- Beside an infinite divisor, all finite numbers are nothing.
    refine .inr fun z numerator => ?_
    have made : MadeOf (z / y) (.div .binary64 (parts z) (parts y)) := rfl
    rw [infinite] at made
    have vanishing : Rounds 0 (z / y) := by
      have proper := proper_parts numerator
      generalize parts z = u at made proper
      cases proper <;> exact Proper.zero.rounds made
    exact vanishing.value_eq .zero abs_zero_lt
  · -- A zero leaves no finite quotient.
    have number := isFinite_of_proper proper
    refine .inl ⟨number, fun nothing => ?_⟩
    have zero : ∃ sign, parts y = .zero sign := by
      rcases zero_of_value number nothing with rfl | rfl
      · exact ⟨.positive, rfl⟩
      · exact ⟨.negative, rfl⟩
    obtain ⟨sign, found⟩ := zero
    rw [found] at quotient
    generalize parts x = u at quotient
    cases u <;> cases quotient

/-- Nothing is divided into nothing, or into no finite quotient. -/
theorem value_zero_div (numerator : x.isFinite = true) (nothing : value x = 0)
    (finite : (x / y).isFinite = true) : value (x / y) = 0 := by
  -- The exact quotient is nothing, which is on the grid.
  rcases divisor_cases finite with ⟨divisor, nonzero⟩ | vanishing
  · have rounds := rounds_div numerator divisor nonzero
    rw [nothing, zero_div] at rounds
    exact (rounds.value_eq .zero abs_zero_lt).2
  · exact (vanishing x numerator).2

/-- What is nearer to zero makes a quotient that is nearer to zero. -/
theorem div_mem_uIcc {z : Float} (left : x.isFinite = true) (right : y.isFinite = true)
    (quotient : (y / z).isFinite = true) (within : value x ∈ Set.uIcc 0 (value y)) :
    (x / z).isFinite = true ∧ value (x / z) ∈ Set.uIcc 0 (value (y / z)) := by
  -- A divisor that is a number shrinks or stretches the interval, and infinity makes all vanish.
  rcases divisor_cases quotient with ⟨finite, nonzero⟩ | vanishing
  · have scaled := Set.mem_image_of_mem (· / value z) within
    rw [Set.image_div_const_uIcc, zero_div] at scaled
    refine (rounds_div left finite nonzero).mem_uIcc_of_alike (rounds_div right finite nonzero)
      quotient .zero abs_zero_lt scaled ?_
    intro equal
    exact (alike_of_value_eq left right ((div_left_inj' nonzero).mp equal)).div z
  · obtain ⟨finite, worth⟩ := vanishing x left
    rw [worth]
    exact ⟨finite, Set.left_mem_uIcc⟩

end

section

variable {n m : Nat}

/-- Whole numbers of at most 53 binary digits are on the grid, within the range of doubles. -/
theorem onGrid_of_few (few : n < 2 ^ 53) : OnGrid n ∧ |(n : ℚ)| < ceiling := by
  -- The number is its own significand, with one for its unit.
  have digits : (n : ℚ) < 2 ^ 53 := by exact_mod_cast few
  have total : (2 : ℚ) ^ 53 ≤ ceiling := by
    rw [ceiling, ← zpow_natCast]
    exact zpow_le_zpow_right₀ one_le_two (by decide)
  refine ⟨⟨n, 0, by decide, by rw [Nat.abs_cast]; omega, by simp⟩, ?_⟩
  rw [Nat.abs_cast]
  exact digits.trans_le total

/-- A whole number is converted to the nearest double. -/
theorem rounds_toFloat (n : Nat) : Rounds n n.toFloat := by
  by_cases few : n < 2 ^ 53
  · -- A short one is converted as a word, and then multiplied by one.
    have word : n.toUInt64.toNat = n := by
      simp only [Nat.toUInt64_eq, UInt64.toNat_ofNat']
      omega
    have made : MadeOf n.toUInt64.toFloat
        (.normalize .binary64 n.toUInt64.toNat 0 .positive) := rfl
    have rounds := rounds_normalize made
    rw [word, Int.cast_natCast, zpow_zero, mul_one] at rounds
    obtain ⟨onGrid, inRange⟩ := onGrid_of_few few
    obtain ⟨finite, worth⟩ := rounds.value_eq onGrid inRange
    obtain ⟨finiteOne, one⟩ : (1 : Float).isFinite = true ∧ value 1 = 1 := by decide +kernel
    have product : n.toFloat = n.toUInt64.toFloat * 1 := by
      change Float.ofScientific n false 0 = _
      rw [Float.ofScientific, dif_pos ⟨few, by decide⟩]
      rfl
    have rounded := rounds_mul finite finiteOne
    rwa [worth, one, mul_one, ← product] at rounded
  · -- A longer one has places appended, which the exponent makes up for.
    have positive : 0 < n <<< 53 := by
      rw [Nat.shiftLeft_eq]
      omega
    have split : UnpackedFloat.ofScientific .binary64 n 0 =
        .mul .binary64 (.finite .positive (n <<< 53) (-53) positive)
          (.finite .positive 1 0 Nat.one_pos) := by
      have scale : 0 < (2 : ℤ) ^ Format.binary64.exponentBits := by decide
      unfold UnpackedFloat.ofScientific
      rw [dif_neg (by omega), if_neg (by omega), if_neg (by omega), if_pos (le_refl 0)]
      rfl
    have made : MadeOf n.toFloat (.ofScientific .binary64 n 0) := by
      change MadeOf (Float.ofScientific n false 0) _
      rw [Float.ofScientific, dif_neg fun fits => few fits.1]
      change MadeOf (.ofModel (.pack (.ofScientific .binary64 n 0))) _
      generalize UnpackedFloat.ofScientific .binary64 n 0 = u
      rfl
    rw [split] at made
    have wide : 2 ^ 52 ≤ n <<< 53 * 1 ∨ (-53 + 0 : ℤ) ≤ leastExponent := by
      rw [Nat.shiftLeft_eq]
      omega
    have worth : ((n <<< 53 : ℕ) : ℚ) * 2 ^ (-53 + 0 : ℤ) = n := by
      have same := shiftLeft_zpow n 53 0
      rw [zpow_zero, mul_one] at same
      exact same
    generalize n <<< 53 = mantissa at *
    have rounds := rounds_exact wide made
    rw [mul_one] at rounds
    rwa [← worth]

/-- Whole numbers of at most 53 binary digits are doubles. -/
theorem value_toFloat (few : n < 2 ^ 53) : n.toFloat.isFinite = true ∧ value n.toFloat = n := by
  -- A number on the grid is not changed by rounding.
  obtain ⟨onGrid, inRange⟩ := onGrid_of_few few
  exact (rounds_toFloat n).value_eq onGrid inRange

/-- Smaller whole numbers are converted to doubles that are nearer to zero. -/
theorem toFloat_mem_uIcc (order : n ≤ m) (finite : m.toFloat.isFinite = true) :
    n.toFloat.isFinite = true ∧ value n.toFloat ∈ Set.uIcc 0 (value m.toFloat) := by
  -- The numbers are in order before they are rounded.
  have within : (n : ℚ) ∈ Set.uIcc 0 (m : ℚ) :=
    Set.mem_uIcc.mpr (.inl ⟨Nat.cast_nonneg _, by exact_mod_cast order⟩)
  refine (rounds_toFloat n).mem_uIcc_of_alike (rounds_toFloat m) finite .zero abs_zero_lt within ?_
  intro equal
  rw [Nat.cast_injective equal]
  exact .refl _

end

end Formula.Double
