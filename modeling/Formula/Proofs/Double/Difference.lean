import Formula.Proofs.Double.Interval

/-! Differences of doubles: none of them is rounded to zero, except between equal numbers. -/

namespace Formula.Double

open Float.Model Float.Model.UnpackedFloat

variable {x y : Float}

/-- A finite difference has finite terms. -/
theorem isFinite_of_sub (finite : (x - y).isFinite = true) :
    x.isFinite = true ∧ y.isFinite = true := by
  -- A difference is the sum with what is negated, and a finite sum has finite summands.
  have made : MadeOf (x - y) (.add .binary64 (parts x) (parts y).neg) := by
    rw [← sub_eq_add_parts]
    rfl
  have sum := isFinite_of_made made finite
  have negated : (parts y).neg.isFinite = (parts y).isFinite := by cases parts y <;> rfl
  constructor
  · by_contra infinite
    have none := (isFinite_arithmetic (Bool.eq_false_iff.mpr infinite) (parts y).neg).1
    exact absurd sum (Bool.eq_false_iff.mp none)
  · by_contra infinite
    have lost := negated.trans (Bool.eq_false_iff.mpr infinite)
    have none := (isFinite_arithmetic lost (parts x)).1
    -- The lemma speaks of the first summand, so the summands are exchanged.
    rw [add_comm_parts] at none
    exact absurd sum (Bool.eq_false_iff.mp none)

/-- The doubles that are equal to zero are the finite ones that are worth nothing. -/
theorem beq_zero_iff : (x == 0) = true ↔ x.isFinite = true ∧ value x = 0 := by
  -- Zero is finite and worth nothing, and finite doubles are compared by what they are worth.
  have finiteZero : (0 : Float).isFinite = true := rfl
  have nothing : value 0 = 0 := rfl
  constructor
  · intro equal
    rw [← nothing]
    exact Alike.value_eq (.inl equal) finiteZero
  · rintro ⟨finite, worth⟩
    rw [beq_iff_value finite finiteZero, worth, nothing]

/--
A difference is zero exactly if it is one of equal finite doubles.

However near two different doubles are, their difference is not rounded to zero: it is a multiple of
the least double. Infinite doubles that are equal have no difference at all.
-/
theorem sub_beq_zero_iff : (x - y == 0) = true ↔ x.isFinite = true ∧ (x == y) = true := by
  rw [beq_zero_iff]
  constructor
  · rintro ⟨finite, nothing⟩
    obtain ⟨left, right⟩ := isFinite_of_sub finite
    have nearest := (rounds_sub left right).nearest finite
    rw [nothing] at nearest
    -- A difference of numbers on the grid is rounded by less than itself.
    have error := nearest.error_sub_le (onGrid_value left) (onGrid_value right)
    rw [sub_zero] at error
    have none : value x - value y = 0 := by
      rw [← abs_eq_zero]
      linarith [abs_nonneg (value x - value y)]
    exact ⟨left, (beq_iff_value left right).mpr (sub_eq_zero.mp none)⟩
  · -- Conversely, equal doubles have the same value, which leaves nothing to round.
    rintro ⟨left, equal⟩
    obtain ⟨right, worth⟩ := Alike.value_eq (Alike.symm (.inl equal)) left
    have rounds := rounds_sub left right
    rw [worth, sub_self] at rounds
    exact rounds.value_eq .zero abs_zero_lt

/-- The difference of different doubles is not zero. -/
theorem sub_beq_zero_of_distinct (distinct : (x == y) = false) : (x - y == 0) = false := by
  -- Were it zero, the doubles would be equal.
  rw [Bool.eq_false_iff]
  intro zero
  rw [(sub_beq_zero_iff.mp zero).2] at distinct
  cases distinct

/-- The difference of different doubles has the parts of neither zero. -/
theorem sub_ne_zero_parts (distinct : (x == y) = false) (sign : Sign) :
    parts (x - y) ≠ .zero sign := by
  -- With such parts the difference would be worth nothing, and so be zero.
  intro zero
  have none := beq_zero_iff.mpr (value_of_parts zero rfl)
  rw [sub_beq_zero_of_distinct distinct] at none
  cases none

end Formula.Double
