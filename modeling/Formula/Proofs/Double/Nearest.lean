import Formula.Proofs.Double.Packing

/-! The numbers that doubles can hold, apart from their range, and the nearest one to any number. -/

namespace Formula.Double

/-- A number of at most 53 binary digits, none of them below the least exponent. -/
def OnGrid (number : ℚ) : Prop :=
  ∃ whole place : ℤ, leastExponent ≤ place ∧ |whole| ≤ 2 ^ 53 ∧ number = whole * 2 ^ place

/-- A number between two others has no greater magnitude than one of them. -/
theorem abs_le_max_of_mem_uIcc {number first second : ℚ}
    (within : number ∈ Set.uIcc first second) : |number| ≤ max |first| |second| := by
  -- Either of the two may be the lower one.
  rcases Set.mem_uIcc.mp within with ⟨above, below⟩ | ⟨above, below⟩
  · exact abs_le_max_abs_abs above below
  · rw [max_comm]
    exact abs_le_max_abs_abs above below

namespace OnGrid

/-- Zero is on the grid. -/
theorem zero : OnGrid 0 :=
  ⟨0, leastExponent, Int.le_refl _, by decide, by simp⟩

/-- A canonical significand with its exponent is on the grid. -/
theorem of_canonical {mantissa : Nat} {exponent : ℤ} (canonical : Canonical mantissa exponent) :
    OnGrid (mantissa * 2 ^ exponent) := by
  -- A canonical significand has at most 53 digits.
  have narrow := canonical.narrow
  exact ⟨mantissa, exponent, canonical.bounded, by rw [abs_of_nonneg] <;> omega, by simp⟩

/-- Powers of two are on the grid from the least exponent on. -/
theorem two_zpow {place : ℤ} (bounded : leastExponent ≤ place) : OnGrid (2 ^ place) :=
  ⟨1, place, bounded, by decide, by simp⟩

variable {number : ℚ}

/-- The grid is symmetric. -/
theorem neg (onGrid : OnGrid number) : OnGrid (-number) := by
  -- The significand is negated, and has as many digits.
  obtain ⟨whole, place, bounded, narrow, rfl⟩ := onGrid
  exact ⟨-whole, place, bounded, by rwa [abs_neg], by simp⟩

/-- The magnitude of a number on the grid is on the grid. -/
theorem magnitude (onGrid : OnGrid number) : OnGrid |number| := by
  -- A magnitude is the number itself or the negated one.
  rcases abs_choice number with same | negated
  · rwa [same]
  · rw [negated]
    exact onGrid.neg

/-- The smaller of two numbers on the grid is on the grid. -/
theorem min {other : ℚ} (onGrid : OnGrid number) (onGridOther : OnGrid other) :
    OnGrid (min number other) := by
  -- The smaller one is one of both.
  rcases min_choice number other with same | same
  · rwa [same]
  · rwa [same]

/-- The greater of two numbers on the grid is on the grid. -/
theorem max {other : ℚ} (onGrid : OnGrid number) (onGridOther : OnGrid other) :
    OnGrid (max number other) := by
  -- The greater one is one of both.
  rcases max_choice number other with same | same
  · rwa [same]
  · rwa [same]

/-- The double of a number on the grid is on the grid. -/
theorem two_mul (onGrid : OnGrid number) : OnGrid (2 * number) := by
  -- The significand stays, at the next exponent.
  obtain ⟨whole, place, bounded, narrow, rfl⟩ := onGrid
  refine ⟨whole, place + 1, by omega, narrow, ?_⟩
  rw [zpow_add_one₀ two_ne_zero]
  ring

/-- A number on the grid is a multiple of the unit at the least exponent. -/
theorem exists_multiple (onGrid : OnGrid number) :
    ∃ multiple : ℤ, number = multiple * 2 ^ leastExponent := by
  -- The exponent exceeds the least one by some places, which are appended to the significand.
  obtain ⟨whole, place, bounded, -, rfl⟩ := onGrid
  obtain ⟨more, rfl⟩ := Int.le.dest bounded
  refine ⟨whole * 2 ^ more, ?_⟩
  rw [zpow_add₀ two_ne_zero, zpow_natCast]
  push_cast
  ring

/-- A number on the grid is a multiple of a unit, or is not beyond the least full one of it. -/
theorem exists_multiple_or_le (onGrid : OnGrid number) (place : ℤ) :
    (∃ multiple : ℤ, number = multiple * 2 ^ place) ∨
      leastExponent < place ∧ number ≤ 2 ^ 52 * 2 ^ place := by
  obtain ⟨whole, finer, bounded, narrow, rfl⟩ := onGrid
  by_cases coarse : place ≤ finer
  · -- Numbers of a coarser unit are multiples of the finer one.
    obtain ⟨more, rfl⟩ := Int.le.dest coarse
    refine .inl ⟨whole * 2 ^ more, ?_⟩
    rw [zpow_add₀ two_ne_zero, zpow_natCast]
    push_cast
    ring
  · -- Numbers of a finer unit have too few digits to reach further.
    have shorter : (2 : ℚ) ^ finer ≤ 2 ^ (place - 1) := by
      gcongr
      · exact one_le_two
      · omega
    have digits : (whole : ℚ) ≤ 2 ^ 53 := by exact_mod_cast (le_abs_self whole).trans narrow
    rw [zpow_sub_one₀ two_ne_zero] at shorter
    refine .inr ⟨by omega, ?_⟩
    calc (whole : ℚ) * 2 ^ finer ≤ 2 ^ 53 * 2 ^ finer := by gcongr
      _ ≤ 2 ^ 53 * (2 ^ place * 2⁻¹) := by gcongr
      _ = 2 ^ 52 * 2 ^ place := by ring

/-- A small multiple of the unit at the least exponent is on the grid. -/
theorem of_multiple {multiple : ℤ}
    (small : |multiple * (2 : ℚ) ^ leastExponent| ≤ 2 ^ 53 * 2 ^ leastExponent) :
    OnGrid (multiple * 2 ^ leastExponent) := by
  -- Dividing by the unit leaves a whole number that is small enough.
  have unit : (0 : ℚ) < 2 ^ leastExponent := by positivity
  refine ⟨multiple, leastExponent, Int.le_refl _, ?_, rfl⟩
  rw [abs_mul, abs_of_pos unit, mul_le_mul_iff_left₀ unit] at small
  exact_mod_cast small

/-- A small sum of numbers on the grid is on the grid. -/
theorem add_of_small {other : ℚ} (onGrid : OnGrid number) (onGridOther : OnGrid other)
    (small : |number + other| ≤ 2 ^ 53 * 2 ^ leastExponent) : OnGrid (number + other) := by
  -- The sum is a multiple of the same unit as its parts.
  obtain ⟨first, rfl⟩ := onGrid.exists_multiple
  obtain ⟨second, rfl⟩ := onGridOther.exists_multiple
  rw [← add_mul, ← Int.cast_add] at small ⊢
  exact of_multiple small

/-- A small multiple of a number on the grid is on the grid. -/
theorem mul_of_small (onGrid : OnGrid number) (count : ℕ)
    (small : |count * number| ≤ 2 ^ 53 * 2 ^ leastExponent) : OnGrid (count * number) := by
  -- The multiple is counted in the same unit as the number.
  obtain ⟨whole, rfl⟩ := onGrid.exists_multiple
  have whole_count : (count * (whole * 2 ^ leastExponent) : ℚ) =
      (count * whole : ℤ) * 2 ^ leastExponent := by
    push_cast
    ring
  rw [whole_count] at small ⊢
  exact of_multiple small

end OnGrid

/-- A number on the grid to which no other one is nearer. -/
structure Nearest (number rounded : ℚ) : Prop where
  onGrid : OnGrid rounded
  nearest : ∀ other, OnGrid other → |number - rounded| ≤ |number - other|

namespace Nearest

variable {number rounded bound : ℚ}

/-- A number on the grid is its own nearest one. -/
theorem refl (onGrid : OnGrid number) : Nearest number number :=
  -- No distance is less than none.
  ⟨onGrid, fun other _ => by simp⟩

/-- Rounding does not change what is on the grid. -/
theorem eq_of_onGrid (nearest : Nearest number rounded) (onGrid : OnGrid number) :
    rounded = number := by
  -- The number itself is at no distance.
  have none := nearest.nearest number onGrid
  rw [sub_self, abs_zero, abs_nonpos_iff, sub_eq_zero] at none
  exact none.symm

/-- Rounding is symmetric. -/
theorem neg (nearest : Nearest number rounded) : Nearest (-number) (-rounded) := by
  -- Distances are the same on the other side of zero.
  refine ⟨nearest.onGrid.neg, fun other onGrid => ?_⟩
  have closer := nearest.nearest (-other) onGrid.neg
  rw [← abs_neg] at closer
  rw [← abs_neg (-number - other)]
  convert closer using 2 <;> ring

/-- Rounding does not pass any number on the grid on its way up. -/
theorem le (nearest : Nearest number rounded) (onGrid : OnGrid bound) (below : number ≤ bound) :
    rounded ≤ bound := by
  -- Beyond the bound it would be farther away than the bound itself.
  by_contra beyond
  have closer := nearest.nearest bound onGrid
  rw [abs_of_nonpos (by linarith), abs_of_nonpos (by linarith)] at closer
  linarith

/-- Rounding does not pass any number on the grid on its way down. -/
theorem ge (nearest : Nearest number rounded) (onGrid : OnGrid bound) (above : bound ≤ number) :
    bound ≤ rounded := by
  -- This is the other direction, mirrored at zero.
  have mirrored := nearest.neg.le onGrid.neg (by linarith)
  linarith

/-- Rounding does not enlarge a magnitude beyond a number on the grid. -/
theorem magnitude_le (nearest : Nearest number rounded) (onGrid : OnGrid bound)
    (within : |number| ≤ bound) : |rounded| ≤ bound := by
  -- The bound and its negation are both on the grid, so that neither is passed.
  obtain ⟨above, below⟩ := abs_le.mp within
  exact abs_le.mpr ⟨nearest.ge onGrid.neg above, nearest.le onGrid below⟩

/-- Rounding does not diminish a magnitude beyond a number on the grid. -/
theorem le_magnitude (nearest : Nearest number rounded) (onGrid : OnGrid bound)
    (beyond : bound ≤ |number|) : bound ≤ |rounded| := by
  -- The number is beyond the bound on one side of zero, where rounding does not pass it.
  rcases le_abs.mp beyond with above | below
  · exact le_abs.mpr (.inl (nearest.ge onGrid above))
  · have mirrored := nearest.neg.ge onGrid below
    exact le_abs.mpr (.inr mirrored)

/-- Only a number that is at most a half is rounded to zero. -/
theorem abs_le_half (nearest : Nearest number 0) : |number| ≤ 1 / 2 := by
  -- Both one and minus one are on the grid, and no nearer than zero.
  have one : OnGrid 1 := OnGrid.two_zpow (Int.le_of_lt (by decide : leastExponent < 0))
  have up := nearest.nearest 1 one
  have down := nearest.nearest (-1) one.neg
  rw [sub_zero] at up down
  -- A number farther from zero would be nearer to the one on its side.
  by_contra far
  rcases abs_cases number with ⟨same, nonneg⟩ | ⟨same, negative⟩
  · have closer : |number - 1| < |number| := abs_lt.mpr ⟨by linarith, by linarith⟩
    linarith
  · have closer : |number - -1| < |number| := abs_lt.mpr ⟨by linarith, by linarith⟩
    linarith

/-- Rounding does not leave an interval between numbers on the grid. -/
theorem mem_uIcc {first second : ℚ} (nearest : Nearest number rounded) (onGrid : OnGrid first)
    (onGridOther : OnGrid second) (within : number ∈ Set.uIcc first second) :
    rounded ∈ Set.uIcc first second := by
  -- Neither end is passed, whichever of them is greater.
  rcases Set.mem_uIcc.mp within with ⟨above, below⟩ | ⟨above, below⟩
  · exact Set.mem_uIcc.mpr (.inl ⟨nearest.ge onGrid above, nearest.le onGridOther below⟩)
  · exact Set.mem_uIcc.mpr (.inr ⟨nearest.ge onGridOther above, nearest.le onGrid below⟩)

/-- Rounding what is slightly below a number on the grid goes no further down than twice that. -/
theorem sub_le {slack : ℚ} (nearest : Nearest number rounded) (onGrid : OnGrid bound)
    (nonneg : 0 ≤ slack) (close : bound - slack ≤ number) : bound - 2 * slack ≤ rounded := by
  -- A number beyond the bound does not come back below it.
  by_cases above : bound ≤ number
  · have kept := nearest.ge onGrid above
    linarith
  · -- The bound itself is within the slack, so that the nearest number is, too.
    have closer := nearest.nearest bound onGrid
    rw [abs_sub_comm number bound, abs_of_nonneg (a := bound - number) (by linarith)] at closer
    linarith [(abs_le.mp closer).2]

/-- Rounding what is slightly above a number on the grid goes no further up than twice that. -/
theorem le_add {slack : ℚ} (nearest : Nearest number rounded) (onGrid : OnGrid bound)
    (nonneg : 0 ≤ slack) (close : number ≤ bound + slack) : rounded ≤ bound + 2 * slack := by
  -- This is the other direction, mirrored at zero.
  have mirrored := nearest.neg.sub_le onGrid.neg nonneg (by linarith)
  linarith

/-- Two multiples of a unit are not both less than half a unit away. -/
theorem le_add_of_multiples {unit : ℚ} (positive : 0 < unit) {whole other : ℤ}
    (distinct : other ≠ whole) :
    unit ≤ |number - whole * unit| + |number - other * unit| := by
  -- The multiples are at least one unit apart.
  have apart : unit ≤ |(other - whole) * unit| := by
    have least : (1 : ℚ) ≤ |(other - whole : ℚ)| := by
      exact_mod_cast Int.one_le_abs (sub_ne_zero.mpr distinct)
    rw [abs_mul, abs_of_pos positive]
    exact le_mul_of_one_le_left positive.le least
  have triangle := abs_sub_le (other * unit) number (whole * unit)
  rw [← sub_mul, abs_sub_comm (other * unit) number] at triangle
  linarith

/-- No multiple of a unit is nearer than one that is at most half a unit away. -/
theorem abs_sub_multiple_le {unit : ℚ} (positive : 0 < unit) {whole : ℤ}
    (close : |number - whole * unit| ≤ unit / 2) (other : ℤ) :
    |number - whole * unit| ≤ |number - other * unit| := by
  -- Another multiple is at least a unit away from this one.
  by_cases same : other = whole
  · rw [same]
  · have apart := @le_add_of_multiples number unit positive whole other same
    linarith

/-- A multiple of a unit of the grid is nearest if it is at most half a unit away. -/
theorem of_half_unit {whole place : ℤ} (bounded : leastExponent ≤ place)
    (narrow : |whole| ≤ 2 ^ 53) (full : place = leastExponent ∨ 2 ^ 52 * 2 ^ place ≤ number)
    (close : |number - whole * 2 ^ place| ≤ 2 ^ place / 2) :
    Nearest number (whole * 2 ^ place) := by
  -- Another number on the grid is a multiple of the same unit, or below all full ones.
  have unit : (0 : ℚ) < 2 ^ place := by positivity
  refine ⟨⟨whole, place, bounded, narrow, rfl⟩, fun other onGrid => ?_⟩
  rcases onGrid.exists_multiple_or_le place with ⟨multiple, rfl⟩ | ⟨finer, least⟩
  · exact abs_sub_multiple_le unit close multiple
  · -- What is below the least full multiple is not nearer than that one.
    have leading := full.resolve_left (by omega)
    have closer := abs_sub_multiple_le unit close (2 ^ 52)
    rw [Int.cast_pow, Int.cast_ofNat] at closer
    rw [abs_of_nonneg (a := number - 2 ^ 52 * 2 ^ place) (by linarith)] at closer
    rw [abs_of_nonneg (a := number - other) (by linarith)]
    linarith

/-- Nothing else is as near as a multiple of a unit that is less than half a unit away. -/
theorem eq_of_half_unit {whole place : ℤ}
    (full : place = leastExponent ∨ 2 ^ 52 * 2 ^ place ≤ number)
    (close : |number - whole * 2 ^ place| < 2 ^ place / 2) {other : ℚ} (onGrid : OnGrid other)
    (near : |number - other| ≤ |number - whole * 2 ^ place|) : other = whole * 2 ^ place := by
  -- Less than half a unit away, there is only one multiple.
  have unit : (0 : ℚ) < 2 ^ place := by positivity
  have sole : ∀ multiple : ℤ, |number - multiple * 2 ^ place| ≤ |number - whole * 2 ^ place| →
      multiple = whole := by
    intro multiple closer
    by_contra distinct
    have apart := @le_add_of_multiples number (2 ^ place) unit whole multiple distinct
    linarith
  rcases onGrid.exists_multiple_or_le place with ⟨multiple, rfl⟩ | ⟨finer, least⟩
  · rw [sole multiple near]
  · -- The least full multiple is as near, so that it is the only one, and nothing is below it.
    have leading := full.resolve_left (by omega)
    rw [abs_of_nonneg (a := number - other) (by linarith)] at near
    have reached : |number - (2 ^ 52 : ℤ) * 2 ^ place| ≤ |number - whole * 2 ^ place| := by
      rw [Int.cast_pow, Int.cast_ofNat, abs_of_nonneg (by linarith)]
      linarith
    rw [← sole (2 ^ 52) reached, Int.cast_pow, Int.cast_ofNat] at near ⊢
    rw [abs_of_nonneg (by linarith)] at near
    linarith

/-- Some multiple of a unit of the grid is at most half a unit away, if it has few digits. -/
theorem exists_half_unit {place : ℤ} (bounded : leastExponent ≤ place)
    (narrow : |number| ≤ 2 ^ 53 * 2 ^ place) :
    ∃ other, OnGrid other ∧ |number - other| ≤ 2 ^ place / 2 := by
  -- The multiple is the number in units of the place, rounded.
  have unit : (0 : ℚ) < 2 ^ place := by positivity
  have close := abs_sub_round (number / 2 ^ place)
  refine ⟨round (number / 2 ^ place) * 2 ^ place, ⟨_, place, bounded, ?_, rfl⟩, ?_⟩
  · -- The multiple of the unit is rounded from one with as few digits.
    have few : |number / 2 ^ place| ≤ 2 ^ 53 := by
      rwa [abs_div, abs_of_pos unit, div_le_iff₀ unit]
    have rounded : |(round (number / 2 ^ place) : ℚ)| < 2 ^ 53 + 1 := by
      have triangle := abs_sub_abs_le_abs_sub (round (number / 2 ^ place) : ℚ) (number / 2 ^ place)
      rw [abs_sub_comm] at triangle
      linarith
    exact Int.lt_add_one_iff.mp (by exact_mod_cast rounded)
  · -- Its distance is at most one half in these units.
    have whole : number = number / 2 ^ place * 2 ^ place := (div_mul_cancel₀ number unit.ne').symm
    calc |number - round (number / 2 ^ place) * 2 ^ place|
        = |number / 2 ^ place - round (number / 2 ^ place)| * 2 ^ place := by
          conv_lhs => rw [whole, ← sub_mul, abs_mul, abs_of_pos unit, ← whole]
      _ ≤ 1 / 2 * 2 ^ place := by gcongr
      _ = 2 ^ place / 2 := by ring

/-- A number is rounded by a small part of it, or by at most half of the least unit. -/
theorem error_le (nearest : Nearest number rounded) :
    |number - rounded| ≤ |number| / 2 ^ 53 ∨
      |number| < 2 ^ 52 * 2 ^ leastExponent ∧ |number - rounded| ≤ 2 ^ leastExponent / 2 := by
  by_cases small : |number| < 2 ^ 52 * 2 ^ leastExponent
  · -- Small numbers are rounded at the least exponent.
    have narrow : |number| ≤ 2 ^ 53 * 2 ^ leastExponent :=
      small.le.trans (by gcongr <;> norm_num)
    obtain ⟨other, onGrid, close⟩ := exists_half_unit (Int.le_refl _) narrow
    exact .inr ⟨small, (nearest.nearest other onGrid).trans close⟩
  · -- Others have their leading digit at a place that leaves room for 52 more.
    have positive : 0 < |number| := lt_of_lt_of_le (by positivity) (not_lt.mp small)
    have lower : (2 : ℚ) ^ Int.log 2 |number| ≤ |number| := by
      exact_mod_cast Int.zpow_log_le_self one_lt_two positive
    have upper : |number| < (2 : ℚ) ^ (Int.log 2 |number| + 1) := by
      exact_mod_cast Int.lt_zpow_succ_log_self one_lt_two |number|
    have reached : 52 + leastExponent ≤ Int.log 2 |number| := by
      refine (Int.zpow_le_iff_le_log (b := 2) (by decide) positive).mp ?_
      have normal := not_lt.mp small
      rw [zpow_add₀ (by norm_num)]
      exact_mod_cast normal
    set leading := Int.log 2 |number|
    have narrow : |number| ≤ 2 ^ 53 * 2 ^ (leading - 52) := by
      refine upper.le.trans_eq ?_
      rw [← zpow_natCast (2 : ℚ) 53, ← zpow_add₀ two_ne_zero]
      congr 1
      push_cast
      ring
    obtain ⟨other, onGrid, close⟩ := exists_half_unit (by omega) narrow
    refine .inl (((nearest.nearest other onGrid).trans close).trans ?_)
    calc (2 : ℚ) ^ (leading - 52) / 2 = 2 ^ leading / 2 ^ 53 := by
          rw [zpow_sub₀ two_ne_zero, zpow_ofNat]
          ring
      _ ≤ |number| / 2 ^ 53 := by gcongr

/-- A number is rounded by no more than a small part of it and half of the least unit together. -/
theorem error_le_add (nearest : Nearest number rounded) :
    |number - rounded| ≤ |number| / 2 ^ 53 + 2 ^ leastExponent / 2 := by
  -- Either part alone bounds the error, and the other one is not negative.
  have part : 0 ≤ |number| / 2 ^ 53 := by positivity
  have unit : (0 : ℚ) ≤ 2 ^ leastExponent / 2 := by positivity
  rcases nearest.error_le with relative | ⟨-, absolute⟩
  · linarith
  · linarith

/-- A number is rounded by a small part of it, unless it is a small one that is off the grid. -/
theorem error_le_of_small (nearest : Nearest number rounded)
    (exact : |number| ≤ 2 ^ 53 * 2 ^ leastExponent → OnGrid number) :
    |number - rounded| ≤ |number| / 2 ^ 53 := by
  -- What is too small for its leading digits is not rounded at all.
  rcases nearest.error_le with part | ⟨small, -⟩
  · exact part
  · have narrow : |number| ≤ 2 ^ 53 * 2 ^ leastExponent :=
      small.le.trans (by gcongr <;> norm_num)
    rw [nearest.eq_of_onGrid (exact narrow), sub_self, abs_zero]
    positivity

/-- The sum of two numbers on the grid is rounded by a small part of it. -/
theorem error_add_le {first second : ℚ} (nearest : Nearest (first + second) rounded)
    (onGrid : OnGrid first) (onGridOther : OnGrid second) :
    |first + second - rounded| ≤ |first + second| / 2 ^ 53 :=
  nearest.error_le_of_small (onGrid.add_of_small onGridOther)

/-- A multiple of a number on the grid is rounded by a small part of it. -/
theorem error_mul_le {count : ℕ} (nearest : Nearest (count * bound) rounded)
    (onGrid : OnGrid bound) : |count * bound - rounded| ≤ |count * bound| / 2 ^ 53 :=
  nearest.error_le_of_small (onGrid.mul_of_small count)

/-- The difference of two numbers on the grid is rounded by a small part of it. -/
theorem error_sub_le {first second : ℚ} (nearest : Nearest (first - second) rounded)
    (onGrid : OnGrid first) (onGridOther : OnGrid second) :
    |first - second - rounded| ≤ |first - second| / 2 ^ 53 := by
  -- A difference is the sum with what is negated.
  rw [sub_eq_add_neg first second] at nearest ⊢
  exact nearest.error_add_le onGrid onGridOther.neg

end Nearest

end Formula.Double
