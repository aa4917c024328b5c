import Formula.Number
import Formula.Proofs.Double.Alike

/-! Comparison of given numbers: the order in which two of them are given does not matter. -/

namespace Formula

namespace Number

/-- Doubles are compared as such. -/
theorem isBelow_real {x y : Float} : (real x).isBelow (.real y) = true ↔ x < y := by
  -- Being below is the first thing that is looked at.
  unfold isBelow compare?
  by_cases below : x < y
  · simp [below]
  · simp only [below, if_false, beq_iff_eq, iff_false]
    split_ifs <;> simp

/-- A double that is at most another one is defined, and its rank is at most that of the other. -/
theorem rank_le_of_isAtMost {x y : Float} (within : isAtMost (.real x) (.real y) = true) :
    x.isNaN = false ∧ Double.rank x ≤ Double.rank y := by
  -- To be at most another is to be below it or equal to it, and both are told by ranks.
  have order : x < y ∨ (x == y) = true := by
    unfold isAtMost compare? at within
    by_cases below : x < y
    · exact .inl below
    · simp only [below, if_false] at within
      split_ifs at within with above equal
      · simp at within
      · exact .inr equal
      · simp at within
  rcases order with below | equal
  · obtain ⟨left, right⟩ := Double.isNaN_of_lt below
    exact ⟨left, ((Double.lt_iff_rank left right).mp below).le⟩
  · -- Equal doubles are both defined, for an undefined one is equal to none.
    have turned := (Double.beq_comm_double x y).symm.trans equal
    have defined {z w : Float} (same : (z == w) = true) : z.isNaN = false := by
      rw [Bool.eq_false_iff, Ne, Double.isNaN_iff]
      exact (Double.beq_iff_parts.mp same).2
    exact ⟨defined equal,
      ((Double.beq_iff_rank (defined equal) (defined turned)).mp equal).le⟩

/-- Whole numbers are compared as such. -/
theorem isBelow_whole {m n : Int} : (whole m).isBelow (.whole n) = true ↔ m < n := by
  -- Nothing is rounded, so the comparison is that of whole numbers.
  simp [isBelow, compare?, Int.compare_eq_lt]

/-- Whole numbers are at most one another as such. -/
theorem isAtMost_whole {m n : Int} : (whole m).isAtMost (.whole n) = true ↔ m ≤ n := by
  simp [isAtMost, compare?, Int.compare_eq_lt, Int.le_iff_lt_or_eq]

/-- If a number is below another one, that one is above it. -/
theorem compare?_of_isBelow {a b : Number} (below : a.isBelow b = true) :
    b.compare? a = some .gt := by
  -- The two comparisons mirror each other in every combination of kinds.
  unfold isBelow at below
  cases a with
  | whole m =>
    cases b with
    | whole n =>
      simp only [compare?, beq_iff_eq, Option.some.injEq, Int.compare_eq_lt] at below
      simpa [compare?, Int.compare_eq_gt] using below
    | real y => simp_all [compare?]
  | real x =>
    cases b with
    | whole n => simp_all [compare?]
    | real y =>
      -- Only between doubles the order has to be known to be asymmetric.
      have less : x < y := isBelow_real.mp below
      simp [compare?, less, Double.lt_asymm_double less]

/-- A number is not at most one that is below it. -/
theorem isAtMost_of_isBelow {a b : Number} (below : a.isBelow b = true) :
    b.isAtMost a = false := by
  simp [isAtMost, compare?_of_isBelow below]

/-- Where a bound is not below a double, the double is at most the bound, or one is undefined. -/
theorem isAtMost_or_undefined {bound : Number} {x : Float}
    (within : bound.isBelow (.real x) = false) : isAtMost (.real x) bound = true ∨
      x.isNaN = true ∨ ∃ y, bound = .real y ∧ y.isNaN = true := by
  -- A whole bound is compared by value, which only an undefined double escapes.
  cases bound with
  | whole n =>
    unfold isBelow compare? at within
    unfold isAtMost compare?
    cases compared : compareReal n x with
    | none =>
      unfold compareReal at compared
      split_ifs at compared with undefined
      exact .inr (.inl undefined)
    | some order => cases order <;> simp_all
  | real y =>
    have notBelow : ¬y < x := fun below => by simp [isBelow_real.mpr below] at within
    -- Two doubles are in some order, or one of them is undefined.
    rcases Double.lt_trichotomy_double x y with below | above | same | left | right
    · exact .inl (by simp [isAtMost, compare?, below])
    · exact absurd above notBelow
    · refine .inl ?_
      by_cases below : x < y
      · simp [isAtMost, compare?, below]
      · simp [isAtMost, compare?, below, notBelow, same]
    · exact .inr (.inl left)
    · exact .inr (.inr ⟨y, rfl, right⟩)

/-- No number that is at least zero is below zero. -/
theorem not_isBelow_zero {tolerance : Number}
    (nonnegative : Number.isAtMost (.whole 0) tolerance = true) :
    tolerance.isBelow (.real 0) = false := by
  -- The two comparisons differ in kind: one is with a whole zero, the other with a double.
  rw [Bool.eq_false_iff]
  intro below
  unfold isAtMost at nonnegative
  cases tolerance with
  | whole n =>
    have finite : (0 : Float).isFinite = true := rfl
    have defined : (0 : Float).isNaN = false := rfl
    have empty : signedSignificand 0 = 0 := by decide
    unfold isBelow at below
    simp only [compare?, compareReal, compareFinite, finite, defined, empty, Bool.false_eq_true,
      if_false, if_true, Int.zero_mul, beq_iff_eq, Option.some.injEq, Int.compare_eq_lt,
      Int.compare_eq_eq, Bool.or_eq_true] at below nonnegative
    -- Scaling by a power of two does not change the sign.
    have scaled : 0 ≤ n * 2 ^ (-Double.exponent 0).toNat :=
      Int.mul_nonneg (by omega) (by positivity)
    omega
  | real x =>
    -- A double below zero is a negative multiple of a power of two, or infinite.
    have negative : x < 0 := isBelow_real.mp below
    obtain ⟨bit, positive⟩ := Double.isNegative_of_lt_zero negative
    have order :
        compare 0 (-(Double.significand x : Int) * 2 ^ (Double.exponent x).toNat) = .gt := by
      have product : 0 < (Double.significand x : Int) * 2 ^ (Double.exponent x).toNat := by
        positivity
      rw [Int.compare_eq_gt, Int.neg_mul]
      omega
    simp only [compare?, compareReal, compareFinite, bit, signedSignificand, if_true, Int.zero_mul,
      order] at nonnegative
    split_ifs at nonnegative <;> cases nonnegative

end Number

end Formula
