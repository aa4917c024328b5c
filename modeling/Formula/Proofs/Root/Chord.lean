import Formula.Proofs.Root.Nesting

/-! False position stays near its bracket, as long as nothing is too large or small for doubles. -/

namespace Formula

open Double (Between between_iff value rounds_add rounds_sub rounds_mul rounds_div onGrid_value
  ceiling Nearest OnGrid leastExponent)

/-- Between numbers of opposite signs, the magnitudes add up to the distance. -/
theorem abs_add_abs_of_opposite {p q : ℚ} (opposite : p < 0 ∧ 0 < q ∨ 0 < p ∧ q < 0) :
    |p| + |q| = |q - p| := by
  -- On either side of zero, the distance of the values leads through zero.
  rcases opposite with ⟨below, above⟩ | ⟨above, below⟩
  · rw [abs_of_neg below, abs_of_pos above, abs_of_pos (by linarith)]
    ring
  · rw [abs_of_pos above, abs_of_neg below, abs_of_neg (by linarith)]
    ring

/-- Where a chord crosses zero is between its ends, if their values have opposite signs. -/
theorem crossing_mem_uIcc {a b p q : ℚ} (opposite : p < 0 ∧ 0 < q ∨ 0 < p ∧ q < 0) :
    (a * q - b * p) / (q - p) ∈ Set.uIcc a b := by
  -- It divides the interval as the values divide their distance.
  have span : q - p ≠ 0 := by
    rcases opposite with ⟨below, above⟩ | ⟨above, below⟩
    · exact ne_of_gt (by linarith)
    · exact ne_of_lt (by linarith)
  have share : 0 ≤ -p / (q - p) ∧ -p / (q - p) ≤ 1 := by
    rcases opposite with ⟨below, above⟩ | ⟨above, below⟩
    · have rising : 0 < q - p := by linarith
      exact ⟨div_nonneg (by linarith) rising.le, (div_le_one rising).mpr (by linarith)⟩
    · have falling : q - p < 0 := by linarith
      exact ⟨div_nonneg_of_nonpos (by linarith) falling.le,
        (div_le_one_of_neg falling).mpr (by linarith)⟩
  have divided : (a * q - b * p) / (q - p) = a + (b - a) * (-p / (q - p)) := by
    field_simp
    ring
  rw [divided, Set.mem_uIcc]
  -- The share of the width that is added is at least none of it, and at most all.
  obtain ⟨nonnegative, short⟩ := share
  rcases le_total a b with less | more
  · have width : 0 ≤ b - a := by linarith
    have whole := mul_le_mul_of_nonneg_left short width
    exact .inl ⟨by linarith [mul_nonneg width nonnegative], by linarith⟩
  · have width : 0 ≤ a - b := by linarith
    have whole := mul_le_mul_of_nonneg_left short width
    exact .inr ⟨by linarith, by linarith [mul_nonneg width nonnegative]⟩

/-- The products of a chord are at most the distance of the values times the greatest point. -/
theorem abs_mul_add_abs_mul_le {a b p q bound : ℚ} (opposite : p < 0 ∧ 0 < q ∨ 0 < p ∧ q < 0)
    (left : |a| ≤ bound) (right : |b| ≤ bound) : |a * q| + |b * p| ≤ bound * |q - p| := by
  -- Both points are bounded alike, and the values add up to their distance.
  rw [abs_mul, abs_mul, ← abs_add_abs_of_opposite opposite]
  have one : |a| * |q| ≤ bound * |q| := by gcongr
  have other : |b| * |p| ≤ bound * |p| := by gcongr
  linarith

/-- What the errors of two rounded products and of their rounded difference come to. -/
theorem abs_sub_rounded_le {x y first second rounded scale unit : ℚ}
    (products : |x| + |y| ≤ scale) (product : |x - first| ≤ |x| / 2 ^ 53 + unit)
    (productOther : |y - second| ≤ |y| / 2 ^ 53 + unit)
    (difference : |first - second - rounded| ≤ |first - second| / 2 ^ 53)
    (negligible : unit ≤ scale / 2 ^ 55) : |x - y - rounded| ≤ 11 * scale / 2 ^ 55 := by
  -- First the products are rounded, and then what is left of their difference.
  have parts : |x - y - (first - second)| ≤ scale / 2 ^ 53 + 2 * unit := by
    have split : x - y - (first - second) = (x - first) - (y - second) := by ring
    rw [split]
    refine (abs_sub _ _).trans ?_
    linarith
  have sum : |first - second| ≤ scale + (scale / 2 ^ 53 + 2 * unit) := by
    have split : first - second = x - y - (x - y - (first - second)) := by ring
    rw [split]
    exact (abs_sub _ _).trans (add_le_add ((abs_sub x y).trans products) parts)
  have triangle := abs_sub_le (x - y) (first - second) rounded
  have nonneg : 0 ≤ scale := by linarith [abs_nonneg x, abs_nonneg y]
  linarith

/-- What the errors of a numerator and of a denominator come to in their quotient. -/
theorem abs_div_sub_le {exact span numerator denominator bound : ℚ} (positive : 0 < |span|)
    (within : |exact * span| ≤ bound * |span|)
    (close : |exact * span - numerator| ≤ 11 * (bound * |span|) / 2 ^ 55)
    (closeSpan : |span - denominator| ≤ |span| / 2 ^ 53) :
    denominator ≠ 0 ∧ |numerator / denominator - exact| ≤ bound / 2 ^ 51 := by
  -- The denominator keeps nearly all of the span.
  have long : |span| - |span| / 2 ^ 53 ≤ |denominator| := by
    have triangle := abs_sub_abs_le_abs_sub span denominator
    linarith
  have nonzero : denominator ≠ 0 := by
    intro zero
    rw [zero, abs_zero] at long
    linarith
  refine ⟨nonzero, ?_⟩
  have bounded : |exact| ≤ bound := by
    rw [abs_mul] at within
    exact le_of_mul_le_mul_right within positive
  have nonneg : 0 ≤ bound := (abs_nonneg exact).trans bounded
  have product : bound * |span| - bound * |span| / 2 ^ 53 ≤ bound * |denominator| := by
    calc bound * |span| - bound * |span| / 2 ^ 53 = bound * (|span| - |span| / 2 ^ 53) := by ring
      _ ≤ bound * |denominator| := by gcongr
  -- What the numerator misses is as little as what the denominator does.
  have missed : |numerator - exact * denominator| ≤ 15 * (bound * |span|) / 2 ^ 55 := by
    have spanError : |exact * (span - denominator)| ≤ bound * (|span| / 2 ^ 53) := by
      rw [abs_mul]
      gcongr
    have split : numerator - exact * denominator =
        exact * (span - denominator) - (exact * span - numerator) := by ring
    rw [split]
    refine (abs_sub _ _).trans ?_
    linarith
  -- Divided by the denominator, that is a small part of the bound.
  have ratio : numerator / denominator - exact =
      (numerator - exact * denominator) / denominator := by
    field_simp
  rw [ratio, abs_div, div_le_iff₀ (abs_pos.mpr nonzero)]
  have scale : 0 ≤ bound * |span| := by positivity
  linarith

/-- What the errors of a rounded chord come to, as a part of the greater magnitude of its ends. -/
theorem abs_quotient_sub_crossing_le {a b p q first second numerator denominator bound unit : ℚ}
    (opposite : p < 0 ∧ 0 < q ∨ 0 < p ∧ q < 0) (left : |a| ≤ bound) (right : |b| ≤ bound)
    (product : |a * q - first| ≤ |a * q| / 2 ^ 53 + unit)
    (productOther : |b * p - second| ≤ |b * p| / 2 ^ 53 + unit)
    (difference : |first - second - numerator| ≤ |first - second| / 2 ^ 53)
    (span : |q - p - denominator| ≤ |q - p| / 2 ^ 53)
    (negligible : unit ≤ bound * |q - p| / 2 ^ 55) :
    denominator ≠ 0 ∧
      |numerator / denominator - (a * q - b * p) / (q - p)| ≤ bound / 2 ^ 51 := by
  -- The numerator is rounded three times, and the denominator once.
  have products := abs_mul_add_abs_mul_le opposite left right
  have rounded := abs_sub_rounded_le products product productOther difference negligible
  have positive : 0 < |q - p| := by
    rcases opposite with ⟨below, above⟩ | ⟨above, below⟩
    · exact abs_pos.mpr (by linarith)
    · exact abs_pos.mpr (by linarith)
  -- The exact crossing times the span is the exact numerator.
  have whole : (a * q - b * p) / (q - p) * (q - p) = a * q - b * p :=
    div_mul_cancel₀ _ (abs_pos.mp positive)
  refine abs_div_sub_le positive ?_ ?_ span
  · rw [whole]
    exact (abs_sub _ _).trans products
  · rwa [whole]

/-- A power of two that leaves room for some doublings within the range of doubles. -/
def large : ℚ :=
  2 ^ (1020 : ℤ)

/-- The greater magnitude of two points. -/
def reach (a b : Float) : ℚ :=
  max |value a| |value b|

/-- Magnitudes are not negative. -/
theorem reach_nonneg (a b : Float) : 0 ≤ reach a b :=
  (abs_nonneg _).trans (le_max_left _ _)

/-- By how much the values of a function at two points differ. -/
def rise (f : Float → Float) (a b : Float) : ℚ :=
  |value (f b) - value (f a)|

/-- Where the chord of a function between two points crosses zero exactly. -/
def crossing (f : Float → Float) (a b : Float) : ℚ :=
  (value a * value (f b) - value b * value (f a)) / (value (f b) - value (f a))

/-- A change of sign between points and values that are neither too large nor too small. -/
structure Moderate (f : Float → Float) (a b : Float) : Prop where
  straddles : Straddles f a b
  finiteLeft : (f a).isFinite = true
  finiteRight : (f b).isFinite = true
  points : reach a b ≤ large
  values : rise f a b ≤ large
  notLarge : reach a b * rise f a b ≤ large
  notSmall : large⁻¹ ≤ reach a b * rise f a b

/-- Large numbers are on the grid. -/
theorem onGrid_large : OnGrid large :=
  .two_zpow (by decide)

/-- Large numbers are positive. -/
theorem large_pos : 0 < large :=
  zpow_pos two_pos _

/-- Twice a large number is within the range of doubles. -/
theorem two_mul_large_lt : 2 * large < ceiling := by
  -- Four doublings lead from a large number to the end of the range.
  have total : ceiling = 2 ^ 4 * large := Double.two_zpow_eq (by decide)
  rw [total]
  linarith [large_pos]

/-- The least unit is far below the inverse of a large number. -/
theorem least_unit_eq : (2 : ℚ) ^ leastExponent / 2 = large⁻¹ / 2 ^ 55 := by
  -- Both are powers of two, whose exponents are compared.
  have inverse : large⁻¹ = 2 ^ 54 * 2 ^ leastExponent := by
    rw [large, ← zpow_neg]
    exact Double.two_zpow_eq (by decide)
  rw [inverse]
  ring

namespace Moderate

variable {f : Float → Float} {a b : Float}

/-- The values are on both sides of zero. -/
theorem opposite (moderate : Moderate f a b) :
    value (f a) < 0 ∧ 0 < value (f b) ∨ 0 < value (f a) ∧ value (f b) < 0 := by
  -- Finite doubles are below or above zero as their values are.
  have zero : (0 : Float).isFinite = true := rfl
  have worth : value 0 = 0 := rfl
  have straddles := moderate.straddles
  rwa [Straddles, Double.lt_iff_value moderate.finiteLeft zero,
    Double.lt_iff_value zero moderate.finiteRight, Double.lt_iff_value zero moderate.finiteLeft,
    Double.lt_iff_value moderate.finiteRight zero, worth] at straddles

/-- The exact crossing is between the points. -/
theorem crossing_mem (moderate : Moderate f a b) :
    crossing f a b ∈ Set.uIcc (value a) (value b) :=
  -- The chord through values of opposite signs crosses zero between its points.
  crossing_mem_uIcc moderate.opposite

/-- The product of a magnitude among the points and one among the values is not large. -/
theorem product_le (moderate : Moderate f a b) {x y : ℚ} (point : |x| ≤ reach a b)
    (value : |y| ≤ rise f a b) : |x * y| ≤ large := by
  -- The bound on the product of both maxima is a part of being moderate.
  rw [abs_mul]
  refine le_trans ?_ moderate.notLarge
  have nonneg := reach_nonneg a b
  gcongr

/-- The chord is rounded to a double that is nearest to a number close to the exact crossing. -/
theorem chordRoot_nearest (moderate : Moderate f a b) (left : a.isFinite = true)
    (right : b.isFinite = true) :
    (Bracket.chordRoot a b (f a) (f b)).isFinite = true ∧
      ∃ quotient, |quotient - crossing f a b| ≤ reach a b / 2 ^ 51 ∧
        Nearest quotient (value (Bracket.chordRoot a b (f a) (f b))) := by
  have opposite := moderate.opposite
  have total : |value (f a)| + |value (f b)| = rise f a b := abs_add_abs_of_opposite opposite
  have pointLeft : |value a| ≤ reach a b := le_max_left _ _
  have pointRight : |value b| ≤ reach a b := le_max_right _ _
  have single : large < ceiling := by linarith [two_mul_large_lt, large_pos]
  -- Both products are finite, and so is their difference.
  have product := rounds_mul left moderate.finiteRight
  have small := moderate.product_le pointLeft
    (show |value (f b)| ≤ rise f a b by linarith [abs_nonneg (value (f a))])
  have finite := product.isFinite onGrid_large single small
  have nearest := product.nearest finite
  have productOther := rounds_mul right moderate.finiteLeft
  have smallOther := moderate.product_le pointRight
    (show |value (f a)| ≤ rise f a b by linarith [abs_nonneg (value (f b))])
  have finiteOther := productOther.isFinite onGrid_large single smallOther
  have nearestOther := productOther.nearest finiteOther
  have difference := rounds_sub finite finiteOther
  have finiteDifference : (a * f b - b * f a).isFinite = true := by
    refine difference.isFinite onGrid_large.two_mul two_mul_large_lt ((abs_sub _ _).trans ?_)
    linarith [nearest.magnitude_le onGrid_large small,
      nearestOther.magnitude_le onGrid_large smallOther]
  -- The values differ by a finite number, and no product is too small to be told from it.
  have span := rounds_sub moderate.finiteRight moderate.finiteLeft
  have finiteSpan := span.isFinite onGrid_large single moderate.values
  have negligible : (2 : ℚ) ^ leastExponent / 2 ≤ reach a b * rise f a b / 2 ^ 55 := by
    rw [least_unit_eq]
    gcongr
    exact moderate.notSmall
  -- So the denominator is not zero, and the quotient close to the exact crossing.
  obtain ⟨nonzero, close⟩ := abs_quotient_sub_crossing_le opposite pointLeft pointRight
    nearest.error_le_add nearestOther.error_le_add
    ((difference.nearest finiteDifference).error_sub_le (onGrid_value finite)
      (onGrid_value finiteOther))
    ((span.nearest finiteSpan).error_sub_le (onGrid_value moderate.finiteRight)
      (onGrid_value moderate.finiteLeft)) negligible
  have quotient := rounds_div finiteDifference finiteSpan nonzero
  have finiteQuotient : (Bracket.chordRoot a b (f a) (f b)).isFinite = true := by
    refine quotient.isFinite onGrid_large.two_mul two_mul_large_lt ?_
    -- The exact crossing is between the points, which are not large.
    have inside : |crossing f a b| ≤ reach a b :=
      Double.abs_le_max_of_mem_uIcc moderate.crossing_mem
    have triangle := (abs_sub_abs_le_abs_sub _ _).trans close
    change _ - |crossing f a b| ≤ _ at triangle
    linarith [large_pos, moderate.points]
  exact ⟨finiteQuotient, _, close, quotient.nearest finiteQuotient⟩

end Moderate

/-- The exact crossing keeps away from both points by more than rounding makes up for. -/
structure Inner (f : Float → Float) (a b : Float) : Prop where
  left : reach a b / 2 ^ 51 ≤ |crossing f a b - value a|
  right : reach a b / 2 ^ 51 ≤ |crossing f a b - value b|

/-- A double is within an interval, or outside it by at most some slack. -/
structure Near (low high slack : ℚ) (x : Float) : Prop where
  finite : x.isFinite = true
  above : low - slack ≤ value x
  below : value x ≤ high + slack

namespace Near

variable {low high slack wider : ℚ} {x a b : Float}

/-- More slack can always be given. -/
theorem mono (near : Near low high slack x) (more : slack ≤ wider) : Near low high wider x :=
  ⟨near.finite, by linarith [near.above], by linarith [near.below]⟩

/-- What is within an interval up to some slack is no larger than its ends and the slack. -/
theorem magnitude_le {bound : ℚ} (near : Near low high slack x) (lower : |low| ≤ bound)
    (upper : |high| ≤ bound) : |value x| ≤ bound + slack := by
  -- What is between two bounded numbers is bounded, up to the slack on either side.
  have first := (abs_le.mp lower).1
  have second := (abs_le.mp upper).2
  exact abs_le.mpr ⟨by linarith [near.above], by linarith [near.below]⟩

end Near

namespace Moderate

variable {f : Float → Float} {a b : Float}

/-- The rounded crossing leaves an interval by little more than the points do. -/
theorem near (moderate : Moderate f a b) {low high slack bound : ℚ} (left : Near low high slack a)
    (right : Near low high slack b) (lower : |low| ≤ bound) (upper : |high| ≤ bound) :
    Near low high (slack + (bound + slack) / 2 ^ 50) (Bracket.chordRoot a b (f a) (f b)) := by
  obtain ⟨finite, quotient, close, nearest⟩ := moderate.chordRoot_nearest left.finite right.finite
  obtain ⟨above, below⟩ := Set.mem_Icc.mp moderate.crossing_mem
  have nonneg := reach_nonneg a b
  have error : 0 ≤ reach a b / 2 ^ 51 := by positivity
  -- What the points may be outside the interval adds to how far they reach.
  have small : reach a b ≤ bound + slack :=
    max_le (left.magnitude_le lower upper) (right.magnitude_le lower upper)
  obtain ⟨closeBelow, closeAbove⟩ := abs_le.mp close
  -- The quotient is hardly outside the points, and is rounded no farther than as much again.
  have down := nearest.sub_le ((onGrid_value left.finite).min (onGrid_value right.finite)) error
    (by linarith)
  have up := nearest.le_add ((onGrid_value left.finite).max (onGrid_value right.finite)) error
    (by linarith)
  have least : low - slack ≤ min (value a) (value b) := le_min left.above right.above
  have greatest : max (value a) (value b) ≤ high + slack := max_le left.below right.below
  exact ⟨finite, by linarith, by linarith⟩

/-- The rounded crossing is between the points, if the exact one keeps away from both of them. -/
theorem between (moderate : Moderate f a b) (left : a.isFinite = true) (right : b.isFinite = true)
    (inner : Inner f a b) :
    value (Bracket.chordRoot a b (f a) (f b)) ∈ Set.uIcc (value a) (value b) := by
  obtain ⟨-, quotient, close, nearest⟩ := moderate.chordRoot_nearest left right
  refine nearest.mem_uIcc (onGrid_value left) (onGrid_value right) ?_
  -- The quotient is as close to the exact crossing as the points are not.
  obtain ⟨closeBelow, closeAbove⟩ := abs_le.mp close
  have farLeft := inner.left
  have farRight := inner.right
  rcases Set.mem_uIcc.mp moderate.crossing_mem with ⟨above, below⟩ | ⟨above, below⟩
  · rw [abs_of_nonneg (by linarith)] at farLeft
    rw [abs_of_nonpos (by linarith)] at farRight
    exact Set.mem_uIcc.mpr (.inl ⟨by linarith, by linarith⟩)
  · rw [abs_of_nonpos (by linarith)] at farLeft
    rw [abs_of_nonneg (by linarith)] at farRight
    exact Set.mem_uIcc.mpr (.inr ⟨by linarith, by linarith⟩)

end Moderate

/-- How far the estimates may drift out of an interval in some steps, from rounding alone. -/
def drift (bound : ℚ) (steps : Nat) : ℚ :=
  bound * ((1 + 2⁻¹ ^ 50) ^ steps - 1)

/-- There is no drift without a step. -/
theorem drift_zero (bound : ℚ) : drift bound 0 = 0 := by
  simp [drift]

/-- Each step adds a small part of what the interval and the drift reach together. -/
theorem drift_succ (bound : ℚ) (steps : Nat) :
    drift bound (steps + 1) = drift bound steps + (bound + drift bound steps) / 2 ^ 50 := by
  -- One more factor multiplies the reach of interval and drift, which is their sum.
  rw [drift, drift, pow_succ]
  ring

/-- The drift is never negative. -/
theorem drift_nonneg {bound : ℚ} (nonneg : 0 ≤ bound) (steps : Nat) : 0 ≤ drift bound steps := by
  -- Each factor is at least one.
  have grown : (1 : ℚ) ≤ (1 + 2⁻¹ ^ 50) ^ steps := one_le_pow₀ (by norm_num)
  exact mul_nonneg nonneg (by linarith)

namespace Shrinking

variable {f : Float → Float} {tolerance : Number} {limit : Nat} {a b : Float}

/-- What the first points have, and each crossing has from its chord, all points have in turn. -/
theorem holds_points (holds : Nat → Float → Prop) (given : Float → Float → Prop)
    (chain : ((falsePosition f).heads tolerance limit (.start a b)).IsChain fun previous _ =>
      given previous.left previous.right)
    (left : holds 0 a) (right : holds 0 b) (middle : holds 0 (Bracket.middle a b))
    (mono : ∀ {place : Nat} {x : Float}, holds place x → holds (place + 1) x)
    (step : ∀ {place : Nat} {x y : Float}, holds place x → holds place y → given x y →
      holds (place + 1) (Bracket.chordRoot x y (f x) (f y)))
    {place : Nat} {head : Bracket}
    (found : ((falsePosition f).heads tolerance limit (.start a b))[place]? = some head) :
    holds place head.left ∧ holds place head.right ∧ holds place head.estimate := by
  refine @holds_heads f (falsePosition f) tolerance
    (fun place head => holds place head.left ∧ holds place head.right ∧ holds place head.estimate)
    _ limit _ chain ⟨left, right, middle⟩ ?_ place head found
  rintro place previous next ⟨left, right, -⟩ moved kind
  -- One of the ends stays, and the other one is the new estimate.
  obtain ⟨-, crossed, ends⟩ := Bracket.falsePosition_cases moved
  have estimate := step left right kind
  rw [← crossed] at estimate
  rcases ends with ⟨sameLeft, newRight⟩ | ⟨newLeft, sameRight⟩
  · -- The left end stays as it was, and the right one is the new estimate.
    rw [sameLeft, newRight]
    exact ⟨mono left, estimate, estimate⟩
  · rw [newLeft, sameRight]
    exact ⟨estimate, mono right, estimate⟩

/-- The estimates drift out of the interval of the search by a little more in every step. -/
theorem near_heads (left : Addable a) (right : Addable b)
    (moderate : ((falsePosition f).heads tolerance limit (.start a b)).IsChain fun previous _ =>
      Moderate f previous.left previous.right) {place : Nat} {head : Bracket}
    (found : ((falsePosition f).heads tolerance limit (.start a b))[place]? = some head) :
    Near (min (value a) (value b)) (max (value a) (value b)) (drift (reach a b) place)
      head.estimate := by
  -- The first estimate is the middle of the interval.
  obtain ⟨finite, inside⟩ := Bracket.middle_mem_uIcc left right
  -- The search starts inside.
  have start {x : Float} (finite : x.isFinite = true)
      (within : value x ∈ Set.uIcc (value a) (value b)) :
      Near (min (value a) (value b)) (max (value a) (value b)) (drift (reach a b) 0) x := by
    obtain ⟨above, below⟩ := Set.mem_Icc.mp within
    rw [drift_zero]
    exact ⟨finite, by linarith, by linarith⟩
  refine (holds_points
    (fun place => Near (min (value a) (value b)) (max (value a) (value b))
      (drift (reach a b) place)) (Moderate f) moderate (start left.finite Set.left_mem_uIcc)
    (start right.finite Set.right_mem_uIcc) (start finite inside) ?_ ?_ found).2.2
  · -- An end that stays has as much room as before, and more.
    intro place x near
    refine near.mono ?_
    rw [drift_succ]
    have nonneg := add_nonneg (reach_nonneg a b) (drift_nonneg (reach_nonneg a b) place)
    linarith
  · -- A crossing leaves the interval by little more than the ends of its bracket.
    intro place x y near nearOther kind
    rw [drift_succ]
    exact kind.near near nearOther abs_min_le_max_abs_abs abs_max_le_max_abs_abs

/-- The estimates stay in the interval of the search as long as the crossings are well inside. -/
theorem mem_uIcc_heads (left : Addable a) (right : Addable b)
    (inner : ((falsePosition f).heads tolerance limit (.start a b)).IsChain fun previous _ =>
      Moderate f previous.left previous.right ∧ Inner f previous.left previous.right)
    {place : Nat} {head : Bracket}
    (found : ((falsePosition f).heads tolerance limit (.start a b))[place]? = some head) :
    head.estimate.isFinite = true ∧ value head.estimate ∈ Set.uIcc (value a) (value b) := by
  refine (holds_points (fun _ x => x.isFinite = true ∧ value x ∈ Set.uIcc (value a) (value b))
    (fun x y => Moderate f x y ∧ Inner f x y) inner ⟨left.finite, Set.left_mem_uIcc⟩
    ⟨right.finite, Set.right_mem_uIcc⟩ (Bracket.middle_mem_uIcc left right) ?_ ?_ found).2.2
  · -- Being in the interval does not depend on how many steps there were.
    intro place x point
    exact point
  · -- A crossing is between the ends of its bracket, and these are in the interval.
    rintro place x y ⟨finiteLeft, insideLeft⟩ ⟨finiteRight, insideRight⟩ ⟨kind, margin⟩
    refine ⟨(kind.chordRoot_nearest finiteLeft finiteRight).1, ?_⟩
    exact Set.uIcc_subset_uIcc insideLeft insideRight (kind.between finiteLeft finiteRight margin)

end Shrinking

namespace Root

/--
False position stays near its interval as long as nothing is too large or too small for doubles.

Let all points and values be finite, of magnitudes whose products are neither large nor small, and
with opposite signs at both ends of each bracket. Then each estimate is a number within the interval
of the search, or outside it by no more than rounding makes it drift; and it is within the interval
if no exact crossing comes as close to an end of its bracket as rounding may carry it.
-/
theorem falsePosition_near {f : Float → Float} {a b : Float} (left : Addable a) (right : Addable b)
    (tolerance limit : Number) :
    let brackets :=
      (Shrinking.falsePosition f).heads tolerance (Bracket.stepsBelow limit) (.start a b)
    (brackets.IsChain fun previous _ => Moderate f previous.left previous.right) →
      (∃ last ∈ brackets.getLast?, estimate .regulaFalsi f tolerance limit a b =
        .ok ⟨last.estimate, brackets.length - 1⟩) ∧
      (∀ place head, brackets[place]? = some head →
        Near (min (value a) (value b)) (max (value a) (value b)) (drift (reach a b) place)
          head.estimate) ∧
      ((brackets.IsChain fun previous _ => Inner f previous.left previous.right) →
        ∀ head ∈ brackets, head.estimate.isFinite = true ∧ Between a b head.estimate) := by
  intro brackets moderate
  have chords : Shrinking.ofMethod? f .regulaFalsi = some (.falsePosition f) := rfl
  refine ⟨Shrinking.estimate_eq_heads chords tolerance limit a b,
    fun place head found => Shrinking.near_heads left right moderate found, ?_⟩
  -- That no estimate leaves the interval is known place by place.
  intro inner head member
  obtain ⟨place, found⟩ := List.getElem?_of_mem member
  -- Each step is of both kinds at once.
  have both : brackets.IsChain fun previous _ => Moderate f previous.left previous.right ∧
      Inner f previous.left previous.right :=
    List.isChain_iff_getElem.mpr fun place within =>
      ⟨List.isChain_iff_getElem.mp moderate place within,
        List.isChain_iff_getElem.mp inner place within⟩
  obtain ⟨finite, inside⟩ := Shrinking.mem_uIcc_heads left right both found
  exact ⟨finite, (between_iff left.finite right.finite finite).mpr inside⟩

/-- A curve that crosses zero at the square root of two. -/
def parabola (x : Float) : Float :=
  x * x - 2

/-- The chord of the parabola between one and two is moderate, and crosses zero well inside. -/
theorem moderate_parabola : Moderate parabola 1 2 ∧ Inner parabola 1 2 := by
  constructor
  · -- Every condition compares two rational numbers that are computed.
    constructor <;> decide +kernel
  · constructor <;> decide +kernel

/-- On the parabola, false position takes one step from one and two, and stays between them. -/
theorem falsePosition_near_parabola :
    let brackets := (Shrinking.falsePosition parabola).heads (.real 0)
      (Bracket.stepsBelow (.whole 1)) (.start 1 2)
    Addable 1 ∧ Addable 2 ∧
      (brackets.IsChain fun previous _ => Moderate parabola previous.left previous.right) ∧
      (brackets.IsChain fun previous _ => Inner parabola previous.left previous.right) ∧
      ∃ m, estimate .regulaFalsi parabola (.real 0) (.whole 1) 1 2 = .ok ⟨m, 1⟩ ∧
        m.isFinite = true ∧ Between 1 2 m := by
  intro brackets
  have left : Addable 1 := .of_exponent_le (by decide)
  have right : Addable 2 := .of_exponent_le (by decide)
  obtain ⟨moderate, inner⟩ := moderate_parabola
  -- The only step starts from the two given points.
  have two : brackets.length = 2 := by decide +kernel
  -- A property of the first step is one of the whole chain.
  have chain {given : Float → Float → Prop} (first : given 1 2) :
      brackets.IsChain fun previous _ => given previous.left previous.right := by
    obtain ⟨head, last, same⟩ := List.length_eq_two.mp two
    have started : brackets.head? = some (.start 1 2) := Shrinking.head?_heads _ _
    rw [same] at started ⊢
    cases started
    exact List.isChain_pair.mpr first
  obtain ⟨⟨last, final, ended⟩, -, inside⟩ :=
    falsePosition_near left right (.real 0) (.whole 1) (chain moderate)
  obtain ⟨finite, between⟩ := inside (chain inner) last (List.mem_of_getLast? final)
  rw [two] at ended
  exact ⟨left, right, chain moderate, chain inner, last.estimate, ended, finite, between⟩

/--
On an interval of the largest doubles, the first estimate is not a number.

Both products overflow, and their difference is undefined.
-/
theorem letter_overflows :
    (∀ x, letter.program.curve x = x) ∧
      ∃ run, find {} {} letter (.real (-1e200)) (.real 2e200) = .ok run ∧
        run.estimate.point.isNaN = true ∧ ¬Between (-1e200) 2e200 run.estimate.point := by
  refine ⟨fun _ => rfl, ?_⟩
  -- The whole search is evaluated, and only the verdict on its result is looked at.
  have ended : (find {} {} letter (.real (-1e200)) (.real 2e200)).toOption.any (fun run =>
      run.estimate.point.isNaN && !decide (Between (-1e200) 2e200 run.estimate.point)) = true := by
    decide +kernel
  cases found : find {} {} letter (.real (-1e200)) (.real 2e200) with
  | error fault =>
    rw [found] at ended
    cases ended
  | ok run =>
    rw [found] at ended
    exact ⟨run, rfl, by simpa [Except.toOption] using ended⟩

end Root

end Formula
