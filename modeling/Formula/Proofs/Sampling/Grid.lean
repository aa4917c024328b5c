import Formula.Proofs.Double.Interval
import Formula.Proofs.Sampling

/-! Even grids: they cover the interval between their ends unless the step is badly rounded. -/

namespace Formula

namespace Sampling

open Double

/-- Where there are not too many places, one of them makes up for three roundings and a half. -/
theorem roundings_le {last : ℚ} (several : 1 ≤ last) (few : last ≤ 2 ^ 50) :
    (last - 1) * (1 + 1 / 2 ^ 53) ^ 3 + (1 + 1 / 2 ^ 53) / 2 ≤ last := by
  -- Three roundings cost less than what half a place leaves.
  have cube : (1 + 1 / 2 ^ 53 : ℚ) ^ 3 ≤ 1 + 7 / 2 ^ 54 := by norm_num
  have others : 0 ≤ last - 1 := by linarith
  have product : (last - 1) * (1 + 1 / 2 ^ 53 : ℚ) ^ 3 ≤ (last - 1) * (1 + 7 / 2 ^ 54) := by
    gcongr
  linarith

/-- What is added up from the rounded parts of a rounded span exceeds it by no more than this. -/
theorem mul_abs_step_le {span rounded step least last : ℚ} (positive : 0 < last)
    (spanClose : |span - rounded| ≤ |span| / 2 ^ 53)
    (stepClose : |rounded / last - step| ≤ |rounded / last| / 2 ^ 53 + least / 2) :
    last * |step| ≤ |span| * (1 + 1 / 2 ^ 53) ^ 2 + last * least / 2 := by
  -- The span is rounded once, and so is its part, which loses half a unit besides.
  have spanBound : |rounded| ≤ |span| * (1 + 1 / 2 ^ 53) := by
    have triangle := abs_sub_abs_le_abs_sub rounded span
    rw [abs_sub_comm] at triangle
    linarith
  have triangle := abs_sub_abs_le_abs_sub step (rounded / last)
  rw [abs_sub_comm, abs_div, abs_of_pos positive] at triangle
  rw [abs_div, abs_of_pos positive] at stepClose
  have quotient : last * (|rounded| / last) = |rounded| := by field_simp
  nlinarith

/-- A share of a rounded span, rounded itself, stays within the span for all but the last place. -/
theorem abs_share_le {span rounded step least : ℚ} {last place : ℕ} (few : last ≤ 2 ^ 50)
    (before : place < last) (spanClose : |span - rounded| ≤ |span| / 2 ^ 53)
    (stepClose : |rounded / last - step| ≤ |rounded / last| / 2 ^ 53 + least / 2)
    (unit : 0 ≤ least) (wide : last ^ 2 * least ≤ |span|) :
    |place * step| * (1 + 1 / 2 ^ 53) ≤ |span| := by
  -- The places before the last leave out at least one step, which pays for all roundings.
  have positive : (0 : ℚ) < last := by exact_mod_cast Nat.zero_lt_of_lt before
  have share : (place : ℚ) ≤ last - 1 := by
    rw [le_sub_iff_add_le]
    exact_mod_cast before
  have others : (0 : ℚ) ≤ last - 1 := share.trans' (Nat.cast_nonneg _)
  have steps := mul_abs_step_le positive spanClose stepClose
  have count : (last : ℚ) ≤ 2 ^ 50 := by exact_mod_cast few
  have room := roundings_le (by linarith) count
  -- Half a unit for each place is at most half of the span.
  have lost : (last - 1) * (last * least / 2) ≤ |span| / 2 := by
    have units : 0 ≤ last * least := by positivity
    linarith
  have scaled : last * (place * |step| * (1 + 1 / 2 ^ 53)) ≤ last * |span| :=
    calc last * (place * |step| * (1 + 1 / 2 ^ 53))
        = place * (last * |step|) * (1 + 1 / 2 ^ 53) := by ring
      _ ≤ (last - 1) * (|span| * (1 + 1 / 2 ^ 53) ^ 2 + last * least / 2) * (1 + 1 / 2 ^ 53) := by
        gcongr
      _ = (last - 1) * |span| * (1 + 1 / 2 ^ 53) ^ 3 +
          (last - 1) * (last * least / 2) * (1 + 1 / 2 ^ 53) := by ring
      _ ≤ (last - 1) * |span| * (1 + 1 / 2 ^ 53) ^ 3 + |span| / 2 * (1 + 1 / 2 ^ 53) := by
        gcongr
      _ = |span| * ((last - 1) * (1 + 1 / 2 ^ 53) ^ 3 + (1 + 1 / 2 ^ 53) / 2) := by ring
      _ ≤ |span| * last := by gcongr
      _ = last * |span| := mul_comm _ _
  rw [abs_mul, Nat.abs_cast]
  exact le_of_mul_le_mul_left scaled positive

/-- A share of a rounded span, rounded itself, is on the side of zero where the span is. -/
theorem share_side {span rounded step : ℚ} {last place : ℕ} (nearestSpan : Nearest span rounded)
    (nearestStep : Nearest (rounded / last) step) :
    (0 ≤ span → 0 ≤ place * step) ∧ (span ≤ 0 → place * step ≤ 0) := by
  -- Rounding does not pass zero, either of the span or of its part.
  constructor
  · intro above
    have spanAbove := nearestSpan.ge .zero above
    have stepAbove := nearestStep.ge .zero (by positivity)
    positivity
  · intro below
    have spanBelow := nearestSpan.le .zero below
    have stepBelow := nearestStep.le .zero
      (div_nonpos_of_nonpos_of_nonneg spanBelow (Nat.cast_nonneg _))
    exact mul_nonpos_of_nonneg_of_nonpos (Nat.cast_nonneg _) stepBelow

/-- What is on the same side of zero as a bound, and no larger, is between zero and the bound. -/
theorem mem_uIcc_of_abs_le {number bound : ℚ} (positive : 0 ≤ bound → 0 ≤ number)
    (negative : bound ≤ 0 → number ≤ 0) (within : |number| ≤ |bound|) :
    number ∈ Set.uIcc 0 bound := by
  -- The bound is above zero or below it, and the number is on its side.
  rcases le_total 0 bound with above | below
  · rw [abs_of_nonneg above] at within
    exact Set.mem_uIcc.mpr (.inl ⟨positive above, (le_abs_self _).trans within⟩)
  · rw [abs_of_nonpos below] at within
    have lower := neg_abs_le number
    exact Set.mem_uIcc.mpr (.inr ⟨by linarith, negative below⟩)

/-- What is added to the start of a grid at a place before the last one. -/
def offset (start stop : Float) (last place : Nat) : Float :=
  if (stop - start) / last.toFloat == 0 then place.toFloat / last.toFloat * (stop - start)
  else place.toFloat * ((stop - start) / last.toFloat)

/-- Every point but the last is the start with its offset. -/
theorem gridPoint_eq (start stop : Float) (last place : Nat) :
    gridPoint start stop last place =
      if place = last then stop else offset start stop last place + start := by
  -- The two ways of calculating a point differ in their offsets alone.
  simp only [gridPoint, offset]
  split_ifs <;> rfl

variable {start stop : Float} {last place other : Nat}

/-- A finite offset needs a finite span. -/
theorem isFinite_span (finite : (offset start stop last place).isFinite = true) :
    (stop - start).isFinite = true := by
  -- The span is a factor of the offset, or the numerator of one.
  unfold offset at finite
  split_ifs at finite
  · exact (isFinite_of_mul finite).2
  · exact isFinite_of_div (isFinite_of_mul finite).2

/-- The shares of earlier places are between zero and those of later ones. -/
theorem share_mem_uIcc (order : place ≤ other)
    (finite : (other.toFloat / last.toFloat).isFinite = true) :
    (place.toFloat / last.toFloat).isFinite = true ∧
      value (place.toFloat / last.toFloat) ∈
        Set.uIcc 0 (value (other.toFloat / last.toFloat)) := by
  -- Smaller numbers of places stay smaller when they are divided by the same.
  have finiteOther := isFinite_of_div finite
  obtain ⟨finitePlace, within⟩ := toFloat_mem_uIcc order finiteOther
  exact div_mem_uIcc finitePlace finiteOther finite within

/-- The share of each place is a double between zero and one. -/
theorem share_mem (few : last < 2 ^ 53) (order : place ≤ last) (positive : 0 < last) :
    (place.toFloat / last.toFloat).isFinite = true ∧
      value (place.toFloat / last.toFloat) ∈ Set.uIcc 0 1 := by
  -- All of the places together make up the whole.
  obtain ⟨finite, worth⟩ := value_toFloat few
  have nonzero : value last.toFloat ≠ 0 := by
    rw [worth]
    exact_mod_cast positive.ne'
  -- The share of the last place is one.
  have whole := rounds_div finite finite nonzero
  rw [div_self nonzero] at whole
  have one : OnGrid 1 := OnGrid.two_zpow (by decide : leastExponent ≤ 0)
  have inRange : |(1 : ℚ)| < ceiling := by
    rw [abs_one]
    exact one_lt_zpow₀ one_lt_two (by decide)
  obtain ⟨finiteWhole, worthWhole⟩ := whole.value_eq one inRange
  rw [← worthWhole]
  exact share_mem_uIcc order finiteWhole

/-- The offsets of earlier places are between zero and those of later ones. -/
theorem offset_mem_uIcc (order : place ≤ other)
    (finite : (offset start stop last other).isFinite = true) :
    (offset start stop last place).isFinite = true ∧
      value (offset start stop last place) ∈ Set.uIcc 0 (value (offset start stop last other)) := by
  unfold offset at finite ⊢
  split_ifs at finite ⊢ with vanishes
  · -- Where the step vanishes, the span is multiplied by a share of it.
    obtain ⟨finiteShare, finiteSpan⟩ := isFinite_of_mul finite
    obtain ⟨finiteEarlier, within⟩ := share_mem_uIcc order finiteShare
    exact mul_mem_uIcc finiteEarlier finiteShare finiteSpan finite within
  · obtain ⟨finiteOther, finiteStep⟩ := isFinite_of_mul finite
    obtain ⟨finitePlace, within⟩ := toFloat_mem_uIcc order finiteOther
    exact mul_mem_uIcc finitePlace finiteOther finiteStep finite within

/-- The points of earlier places are between the start and those of later ones. -/
theorem gridPoint_mem_uIcc (order : place ≤ other) (inGrid : other < last)
    (left : start.isFinite = true) (finite : (gridPoint start stop last other).isFinite = true) :
    (gridPoint start stop last place).isFinite = true ∧
      value (gridPoint start stop last place) ∈
        Set.uIcc (value start) (value (gridPoint start stop last other)) := by
  -- Neither place is the last, so that both points are the start with an offset.
  rw [gridPoint_eq, if_neg (by omega)] at finite ⊢
  rw [gridPoint_eq, if_neg (by omega)]
  have finiteOther := isFinite_of_add finite
  obtain ⟨finitePlace, within⟩ := offset_mem_uIcc order finiteOther
  exact add_mem_uIcc finitePlace finiteOther left finite within

/-- The first point of a grid is worth what its start is. -/
theorem value_gridPoint_zero (positive : 0 < last) (left : start.isFinite = true)
    (finite : (gridPoint start stop last 0).isFinite = true) :
    value (gridPoint start stop last 0) = value start := by
  rw [gridPoint_eq, if_neg (by omega)] at finite ⊢
  have finiteOffset := isFinite_of_add finite
  obtain ⟨finiteZero, zero⟩ := @value_toFloat 0 (by decide)
  -- Nothing is added to the start, whichever way it is calculated.
  have nothing : value (offset start stop last 0) = 0 := by
    unfold offset at finiteOffset ⊢
    split_ifs at finiteOffset ⊢
    · obtain ⟨finiteShare, finiteSpan⟩ := isFinite_of_mul finiteOffset
      have product := rounds_mul finiteShare finiteSpan
      rw [value_zero_div finiteZero zero finiteShare, zero_mul] at product
      exact (product.value_eq .zero abs_zero_lt).2
    · have product := rounds_mul finiteZero (isFinite_of_mul finiteOffset).2
      rw [zero, Nat.cast_zero, zero_mul] at product
      exact (product.value_eq .zero abs_zero_lt).2
  -- A double to which nothing is added is on the grid, and not rounded.
  have sum := rounds_add finiteOffset left
  rw [nothing, zero_add] at sum
  exact (sum.value_eq (onGrid_value left) (abs_value_lt left)).2

/-- With an offset within the span, a point is within the interval. -/
theorem between_gridPoint_of_offset (inGrid : place < last) (left : start.isFinite = true)
    (right : stop.isFinite = true) (within : (offset start stop last place).isFinite = true ∧
      value (offset start stop last place) ∈ Set.uIcc 0 (value stop - value start)) :
    Between start stop (gridPoint start stop last place) := by
  -- Shifted by the start, the span becomes the interval.
  rw [gridPoint_eq, if_neg inGrid.ne]
  have shifted := Set.mem_image_of_mem (· + value start) within.2
  rw [Set.image_add_const_uIcc, zero_add, sub_add_cancel] at shifted
  obtain ⟨finite, inside⟩ := (rounds_add within.1 left).mem_uIcc (onGrid_value left)
    (onGrid_value right) (abs_value_lt left) (abs_value_lt right) shifted
  exact (between_iff left right finite).mpr inside

/-- Where the step vanishes, the span is at most half of the least unit for each place. -/
theorem abs_span_le_of_vanishing (few : last < 2 ^ 53) (positive : 0 < last)
    (span : (stop - start).isFinite = true)
    (vanishes : ((stop - start) / last.toFloat == 0) = true) :
    |value (stop - start)| ≤ last * (2 ^ leastExponent / 2) := by
  have divisor : (0 : ℚ) < last := by exact_mod_cast positive
  have unit : (0 : ℚ) < 2 ^ leastExponent := by positivity
  obtain ⟨finiteLast, worthLast⟩ := value_toFloat few
  have zero : (0 : Float).isFinite = true ∧ value 0 = 0 := ⟨rfl, rfl⟩
  obtain ⟨finiteStep, worthStep⟩ := Alike.value_eq (.inl vanishes) zero.1
  have nearest := (rounds_div span finiteLast (by rw [worthLast]; exact divisor.ne')).nearest
    finiteStep
  rw [worthStep, zero.2, worthLast] at nearest
  -- A share that is rounded to zero is at most half of the least unit.
  have close : |value (stop - start) / last| ≤ 2 ^ leastExponent / 2 := by
    rcases nearest.error_le with part | ⟨-, half⟩
    · rw [sub_zero] at part
      linarith
    · rwa [sub_zero] at half
  rwa [abs_div, abs_of_pos divisor, div_le_iff₀ divisor, mul_comm] at close

section Wide

variable (few : last ≤ 2 ^ 50) (inGrid : place < last) (left : start.isFinite = true)
  (right : stop.isFinite = true) (span : (stop - start).isFinite = true)

include few inGrid left right span

/-- Where the step vanishes, the span is exact, and the offsets are shares of it. -/
theorem offset_mem_of_vanishing (vanishes : ((stop - start) / last.toFloat == 0) = true) :
    (offset start stop last place).isFinite = true ∧
      value (offset start stop last place) ∈ Set.uIcc 0 (value stop - value start) := by
  have small : |value (stop - start)| ≤ last * (2 ^ leastExponent / 2) :=
    abs_span_le_of_vanishing (by omega) (by omega) span vanishes
  -- So small a span is not rounded.
  have exact : value (stop - start) = value stop - value start := by
    have nearest := (rounds_sub right left).nearest span
    have close := nearest.error_sub_le (onGrid_value right) (onGrid_value left)
    have triangle := abs_sub_abs_le_abs_sub (value stop - value start) (value (stop - start))
    have narrow : |value stop - value start| ≤ 2 ^ 53 * 2 ^ leastExponent := by
      have count : (last : ℚ) ≤ 2 ^ 50 := by exact_mod_cast few
      have unit : (0 : ℚ) < 2 ^ leastExponent := by positivity
      have bound : last * (2 ^ leastExponent / 2 : ℚ) ≤ 2 ^ 50 * (2 ^ leastExponent / 2) := by
        gcongr
      linarith
    rw [sub_eq_add_neg] at narrow nearest ⊢
    exact nearest.eq_of_onGrid
      ((onGrid_value right).add_of_small (onGrid_value left).neg narrow)
  -- A share between zero and one of the span lies within the span.
  obtain ⟨finiteShare, share⟩ := @share_mem last place (by omega) inGrid.le (by omega)
  have rounds := rounds_mul finiteShare span
  have within := Set.mem_image_of_mem (· * value (stop - start)) share
  rw [Set.image_mul_const_uIcc, zero_mul, one_mul] at within
  rw [offset, if_pos vanishes, ← exact]
  exact rounds.mem_uIcc .zero (onGrid_value span) abs_zero_lt (abs_value_lt span) within

/-- Over a wide span, the offsets of all places but the last stay within the span. -/
theorem offset_mem_of_wide (nonzero : ¬((stop - start) / last.toFloat == 0) = true)
    (wide : last ^ 2 * 2 ^ leastExponent ≤ |value stop - value start|) :
    (offset start stop last place).isFinite = true ∧
      value (offset start stop last place) ∈ Set.uIcc 0 (value stop - value start) := by
  have positive : (0 : ℚ) < last := by exact_mod_cast Nat.zero_lt_of_lt inGrid
  obtain ⟨finiteLast, worthLast⟩ := @value_toFloat last (by omega)
  obtain ⟨finitePlace, worthPlace⟩ := @value_toFloat place (by omega)
  have roundsSpan := rounds_sub right left
  have nearestSpan := roundsSpan.nearest span
  have closeSpan := nearestSpan.error_sub_le (onGrid_value right) (onGrid_value left)
  -- The step is a part of the span, and so it is finite.
  have roundsStep := rounds_div span finiteLast (by rw [worthLast]; exact positive.ne')
  rw [worthLast] at roundsStep
  have part : |value (stop - start) / last| ≤ |value (stop - start)| := by
    rw [abs_div, abs_of_pos positive]
    refine div_le_self (abs_nonneg _) ?_
    exact_mod_cast Nat.zero_lt_of_lt inGrid
  have finiteStep := roundsStep.isFinite (onGrid_value span).magnitude (abs_value_lt span) part
  have nearestStep := roundsStep.nearest finiteStep
  obtain ⟨up, down⟩ := @share_side _ _ _ last place nearestSpan nearestStep
  have bound := abs_share_le few inGrid closeSpan nearestStep.error_le_add (by positivity) wide
  have roundsOffset := rounds_mul finitePlace finiteStep
  rw [worthPlace] at roundsOffset
  rw [offset, if_neg nonzero]
  generalize place.toFloat * ((stop - start) / last.toFloat) = result at *
  generalize value ((stop - start) / last.toFloat) = step at *
  set distance := value stop - value start
  -- Before it is rounded, the share is strictly within the span.
  have some : 0 < |distance| := lt_of_lt_of_le (by positivity) wide
  have less : |place * step| < |distance| := by
    nlinarith [abs_nonneg (place * step)]
  have finite := (roundsOffset.mem_uIcc_of_alike roundsSpan span .zero abs_zero_lt
    (mem_uIcc_of_abs_le up down less.le) fun same => absurd (congrArg abs same) less.ne).1
  have nearest := roundsOffset.nearest finite
  refine ⟨finite, mem_uIcc_of_abs_le (fun above => nearest.ge .zero (up above))
    (fun below => nearest.le .zero (down below)) ?_⟩
  -- The last rounding was allowed for.
  have close := nearest.error_mul_le nearestStep.onGrid
  have triangle := abs_sub_abs_le_abs_sub (value result) (place * step)
  rw [abs_sub_comm] at triangle
  linarith

/-- A grid stays within its interval if its step vanishes, or if the interval is wide. -/
theorem between_gridPoint
    (steady : ((stop - start) / last.toFloat == 0) = true ∨
      last ^ 2 * 2 ^ leastExponent ≤ |value stop - value start|) :
    Between start stop (gridPoint start stop last place) := by
  -- A step that does not vanish needs the span to be wide.
  refine between_gridPoint_of_offset inGrid left right ?_
  by_cases vanishes : ((stop - start) / last.toFloat == 0) = true
  · exact offset_mem_of_vanishing few inGrid left right span vanishes
  · exact offset_mem_of_wide few inGrid left right span vanishes (steady.resolve_left vanishes)

end Wide

/--
The points cover the interval between two ends, from the start to the stop.

The first point equals the start: a zero may have the other sign there.
-/
structure Covers (start stop : Float) (points : List Float) : Prop where
  first : ∃ point ∈ points.head?, (point == start) = true
  last : points.getLast? = some stop
  finite : ∀ point ∈ points, point.isFinite = true
  within : ∀ point ∈ points, Between start stop point
  rising : start ≤ stop → points.Pairwise (· ≤ ·)
  falling : stop ≤ start → points.Pairwise (· ≥ ·)

/-- The stop is the last point of a grid. -/
theorem gridPoint_last (start stop : Float) (last : Nat) :
    gridPoint start stop last last = stop := by
  -- The stop itself is put at the last place.
  rw [gridPoint_eq, if_pos rfl]

/-- The points of a grid are those at its places. -/
theorem mem_evenGrid {point : Float} :
    point ∈ evenGrid start stop (last + 1) ↔
      ∃ place ≤ last, gridPoint start stop last place = point := by
  -- The places are counted from zero to the last one.
  simp only [evenGrid, List.mem_map, List.mem_range, Nat.lt_succ_iff, Nat.add_sub_cancel]

/-- Of points in a grid, the earlier are in a relation to the later if those at all places are. -/
theorem pairwise_evenGrid {related : Float → Float → Prop}
    (ordered : ∀ place other, place < other → other ≤ last →
      related (gridPoint start stop last place) (gridPoint start stop last other)) :
    (evenGrid start stop (last + 1)).Pairwise related := by
  -- The places themselves are in ascending order.
  rw [evenGrid, List.pairwise_map]
  refine List.Pairwise.imp_of_mem ?_ List.pairwise_lt_range
  intro place other _ later order
  exact ordered place other order (Nat.lt_succ_iff.mp (List.mem_range.mp later))

section

variable (positive : 0 < last) (left : start.isFinite = true) (right : stop.isFinite = true)
  (inside : Between start stop (gridPoint start stop last (last - 1)))

include positive left right inside

/-- If the point before the last is within the interval, all are on the way to those after them. -/
theorem gridPoint_mem_of_between (order : place ≤ other) (inGrid : other ≤ last) :
    (gridPoint start stop last place).isFinite = true ∧
      value (gridPoint start stop last place) ∈
        Set.uIcc (value start) (value (gridPoint start stop last other)) := by
  -- Up to the place before the last, points are their start with offsets that grow.
  have finite := inside.isFinite left right
  rcases Nat.lt_or_eq_of_le inGrid with less | rfl
  · have early : other ≤ last - 1 := by omega
    have finiteOther := (gridPoint_mem_uIcc early (by omega) left finite).1
    exact gridPoint_mem_uIcc order less left finiteOther
  · rw [gridPoint_last]
    rcases Nat.lt_or_eq_of_le order with less | rfl
    · -- The way to the stop leads over the point before it.
      have early : place ≤ other - 1 := by omega
      obtain ⟨finitePlace, earlier⟩ := gridPoint_mem_uIcc early (by omega) left finite
      have later := (between_iff left right finite).mp inside
      exact ⟨finitePlace, Set.uIcc_subset_uIcc Set.left_mem_uIcc later earlier⟩
    · rw [gridPoint_last]
      exact ⟨right, Set.right_mem_uIcc⟩

/-- If the point before the last is within the interval, all points are. -/
theorem between_of_mem {point : Float} (member : point ∈ evenGrid start stop (last + 1)) :
    point.isFinite = true ∧ Between start stop point := by
  -- All points are on the way to the last one, which is the stop.
  obtain ⟨place, inGrid, rfl⟩ := mem_evenGrid.mp member
  obtain ⟨finite, within⟩ := gridPoint_mem_of_between positive left right inside inGrid le_rfl
  rw [gridPoint_last] at within
  exact ⟨finite, (between_iff left right finite).mpr within⟩

/-- If the point before the last is within the interval, points are in the order of the ends. -/
theorem gridPoint_monotone (order : place < other) (inGrid : other ≤ last) :
    (start ≤ stop → gridPoint start stop last place ≤ gridPoint start stop last other) ∧
      (stop ≤ start → gridPoint start stop last other ≤ gridPoint start stop last place) := by
  -- The later point is on the way to the stop, and the earlier one on the way to it.
  obtain ⟨finite, earlier⟩ :=
    gridPoint_mem_of_between positive left right inside order.le inGrid
  obtain ⟨finiteOther, later⟩ :=
    gridPoint_mem_of_between positive left right inside inGrid le_rfl
  rw [gridPoint_last] at later
  rw [le_iff_value left right, le_iff_value right left, le_iff_value finite finiteOther,
    le_iff_value finiteOther finite]
  constructor
  · -- Upward, no point is below the start, nor above a later one.
    intro upward
    rw [Set.uIcc_of_le upward] at later
    rw [Set.uIcc_of_le later.1] at earlier
    exact earlier.2
  · intro downward
    rw [Set.uIcc_of_ge downward] at later
    rw [Set.uIcc_of_ge later.2] at earlier
    exact earlier.1

/-- If the point before the last is within the interval, the grid covers the interval. -/
theorem covers_of_between : Covers start stop (evenGrid start stop (last + 1)) := by
  -- The last point is the stop itself, and the first one is the start but for its sign.
  have each {point : Float} := @between_of_mem start stop last positive left right inside point
  have ordered {place other : Nat} :=
    @gridPoint_monotone start stop last place other positive left right inside
  refine ⟨?_, ?_, fun point member => (each member).1, fun point member => (each member).2, ?_, ?_⟩
  · have head : (evenGrid start stop (last + 1)).head? = some (gridPoint start stop last 0) := by
      simp [evenGrid, List.head?_range]
    have finite := (each (mem_evenGrid.mpr ⟨0, positive.le, rfl⟩)).1
    refine ⟨_, head, ?_⟩
    exact (beq_iff_value finite left).mpr (value_gridPoint_zero positive left finite)
  · rw [evenGrid, List.range_succ, List.map_append, List.map_singleton, List.getLast?_concat,
      Nat.add_sub_cancel, gridPoint_last]
  · intro upward
    exact pairwise_evenGrid fun _ _ order inGrid => (ordered order inGrid).1 upward
  · intro downward
    exact pairwise_evenGrid fun _ _ order inGrid => (ordered order inGrid).2 downward

end

/-- Only over a finite span, the points of a grid are finite. -/
theorem isFinite_span_of_covers (positive : 0 < last)
    (covers : Covers start stop (evenGrid start stop (last + 1))) :
    (stop - start).isFinite = true := by
  -- The first point is finite, which has the span in its offset.
  have finite := covers.finite _ (mem_evenGrid.mpr ⟨0, positive.le, rfl⟩)
  rw [gridPoint_eq, if_neg positive.ne] at finite
  exact isFinite_span (isFinite_of_add finite)

/--
A grid covers its interval exactly if the point before the stop is within it.

That takes a span that is finite after rounding. With no more than 2 ^ 50 points, it is enough if
the step vanishes, or if the span has a least unit for each pair of places.
-/
theorem grid_covers_iff (settings : Settings) {start stop : Float} {count : Nat}
    (left : start.isFinite = true) (right : stop.isFinite = true) (several : 2 ≤ count) :
    ∃ points, grid settings (.real start) (.real stop) (some (.whole count)) = .ok points ∧
      points.length = count ∧
      (Covers start stop points ↔
        Between start stop (gridPoint start stop (count - 1) (count - 2))) ∧
      (Covers start stop points → (stop - start).isFinite = true) ∧
      ((stop - start).isFinite = true → count ≤ 2 ^ 50 →
        ((stop - start) / (count - 1).toFloat == 0) = true ∨
          ((count - 1 : ℕ) : ℚ) ^ 2 * 2 ^ leastExponent ≤ |value stop - value start| →
        Covers start stop points) := by
  -- The grid has at least one place before the last.
  obtain ⟨last, rfl⟩ : ∃ last, count = last + 1 := ⟨count - 1, by omega⟩
  have positive : 0 < last := by omega
  have made : grid settings (.real start) (.real stop) (some (.whole (last + 1 : ℕ))) =
      .ok (evenGrid start stop (last + 1)) := grid_whole settings (by omega) rfl rfl
  -- If all points are within the interval, so is the one before the last.
  have criterion : Covers start stop (evenGrid start stop (last + 1)) ↔
      Between start stop (gridPoint start stop last (last - 1)) := by
    constructor
    · intro covers
      exact covers.within _ (mem_evenGrid.mpr ⟨last - 1, Nat.sub_le _ _, rfl⟩)
    · exact covers_of_between positive left right
  refine ⟨_, made, by simp [evenGrid], criterion, isFinite_span_of_covers positive, ?_⟩
  intro span few steady
  exact criterion.mpr (between_gridPoint (by omega) (by omega) left right span steady)

/-- Five points from zero to one cover the interval, and each of them is exact. -/
theorem grid_covers_iff_quarters :
    (0 : Float).isFinite = true ∧ (1 : Float).isFinite = true ∧ 2 ≤ 5 ∧
      Between 0 1 (gridPoint 0 1 4 3) ∧
        ∃ points, grid {} (.real 0) (.real 1) (some (.whole 5)) = .ok points ∧
          points = [0, 0.25, 0.5, 0.75, 1] ∧ Covers 0 1 points := by
  -- A quarter is a power of two, so that nothing is rounded.
  have left : (0 : Float).isFinite = true := rfl
  have right : (1 : Float).isFinite = true := by decide +kernel
  have several : 2 ≤ 5 := by decide
  have inside : Between 0 1 (gridPoint 0 1 4 3) := by decide +kernel
  obtain ⟨points, made, -, criterion, -⟩ := grid_covers_iff {} left right several
  have found : grid {} (.real 0) (.real 1) (some (.whole 5)) = .ok [0, 0.25, 0.5, 0.75, 1] := rfl
  have same := Except.ok.inj (made.symm.trans found)
  exact ⟨left, right, several, inside, points, made, same, criterion.mpr inside⟩

/-- The step of a narrow interval is rounded up, and leads beyond the stop. -/
example : ¬Between 0 3.5e-323 (gridPoint 0 3.5e-323 10 9) := by decide +kernel

/-- Between large doubles of both signs the span is not finite, nor is a point before the stop. -/
theorem grid_uncovered :
    ¬∀ (start stop : Float) (count : Nat), start.isFinite = true → stop.isFinite = true →
      start ≤ stop → 2 ≤ count →
        ∃ points, grid {} (.real start) (.real stop) (some (.whole count)) = .ok points ∧
          points.length = count ∧ Covers start stop points := by
  -- The span of the two doubles is twice as large as a finite double can be.
  intro covered
  obtain ⟨points, made, -, covers⟩ := covered (-1e308) 1e308 2 (by decide +kernel)
    (by decide +kernel) (by decide +kernel) (by decide)
  have found : grid {} (.real (-1e308)) (.real 1e308) (some (.whole 2)) =
      .ok (evenGrid (-1e308) 1e308 2) := rfl
  have same := Except.ok.inj (made.symm.trans found)
  rw [same] at covers
  have infinite : (1e308 - (-1e308) : Float).isFinite = false := by decide +kernel
  have finite := isFinite_span_of_covers (by decide) covers
  rw [infinite] at finite
  cases finite

end Sampling

end Formula
