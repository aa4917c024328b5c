import Formula.Proofs.Double.Order
import Formula.Proofs.Root.Bracketing

/-! Bisection goes through nested brackets, and every estimate lies in its own bracket. -/

namespace Formula

open Double (Between between_iff value rounds_add rounds_div onGrid_value ceiling)

/-- A finite double whose sum with another one of its kind is within the range of doubles. -/
structure Addable (x : Float) : Prop where
  finite : x.isFinite = true
  small : |value x| < 2 ^ (1023 : ℤ)

namespace Addable

variable {a b x : Float}

/-- Twice the value of a double that can be added is within the range of doubles. -/
theorem two_mul_lt (addable : Addable x) : |2 * value x| < ceiling := by
  -- The range of doubles ends at the power of two after this bound.
  have total : ceiling = 2 ^ 1 * 2 ^ (1023 : ℤ) := Double.two_zpow_eq (by decide)
  rw [abs_mul, abs_two, total, pow_one]
  exact mul_lt_mul_of_pos_left addable.small two_pos

/-- The value of a double that can be added is within the range of doubles. -/
theorem lt_ceiling (addable : Addable x) : |value x| < ceiling := by
  -- The value is less than its double, whatever its sign.
  have double := addable.two_mul_lt
  rw [abs_mul, abs_two] at double
  linarith [abs_nonneg (value x)]

/-- Doubles with any exponent but the greatest one can be added. -/
theorem of_exponent_le (low : Double.exponent x ≤ 970) : Addable x := by
  -- The significand has at most 53 digits, and the unit is small enough by the exponent.
  have finite : x.isFinite = true := by
    rw [Double.isFinite_iff]
    intro greatest
    rw [Double.exponent, if_neg (by omega), greatest] at low
    omega
  refine ⟨finite, ?_⟩
  have narrow : (Double.significand x : ℚ) < 2 ^ 53 := by
    exact_mod_cast (Double.canonical_significand x).narrow
  rw [Double.value_eq finite, Double.abs_signed, abs_of_nonneg (by positivity)]
  have unit : (2 : ℚ) ^ Double.exponent x ≤ 2 ^ (970 : ℤ) := zpow_le_zpow_right₀ one_le_two low
  calc (Double.significand x * 2 ^ Double.exponent x : ℚ)
      < 2 ^ 53 * 2 ^ Double.exponent x := by gcongr
    _ ≤ 2 ^ 53 * 2 ^ (970 : ℤ) := by gcongr
    _ = 2 ^ (1023 : ℤ) := (Double.two_zpow_eq (by decide)).symm

/-- A finite double between two that can be added can be added. -/
theorem of_mem_uIcc (left : Addable a) (right : Addable b) (finite : x.isFinite = true)
    (within : value x ∈ Set.uIcc (value a) (value b)) : Addable x :=
  -- What lies between two numbers has no greater magnitude than one of them.
  ⟨finite, (Double.abs_le_max_of_mem_uIcc within).trans_lt (max_lt left.small right.small)⟩

end Addable

/-- The double two has the value two. -/
theorem Double.value_two : (2 : Float).isFinite = true ∧ value 2 = 2 := by
  decide +kernel

namespace Bracket

variable {a b : Float}

/-- The middle of two doubles lies between them, though both their sum and its half are rounded. -/
theorem middle_mem_uIcc (left : Addable a) (right : Addable b) :
    (middle a b).isFinite = true ∧ value (middle a b) ∈ Set.uIcc (value a) (value b) := by
  obtain ⟨finiteTwo, worthTwo⟩ := Double.value_two
  have gridLeft := onGrid_value left.finite
  have gridRight := onGrid_value right.finite
  -- The sum lies between twice the ends, which are on the grid.
  have sum : value a + value b ∈ Set.uIcc (2 * value a) (2 * value b) := by
    rcases le_total (value a) (value b) with less | more
    · exact Set.mem_uIcc.mpr (.inl ⟨by linarith, by linarith⟩)
    · exact Set.mem_uIcc.mpr (.inr ⟨by linarith, by linarith⟩)
  obtain ⟨finite, within⟩ := (rounds_add left.finite right.finite).mem_uIcc gridLeft.two_mul
    gridRight.two_mul left.two_mul_lt right.two_mul_lt sum
  -- Half of it lies between the ends themselves.
  have half : value (a + b) / value 2 ∈ Set.uIcc (value a) (value b) := by
    rw [worthTwo]
    rcases Set.mem_uIcc.mp within with ⟨above, below⟩ | ⟨above, below⟩
    · exact Set.mem_uIcc.mpr (.inl ⟨by linarith, by linarith⟩)
    · exact Set.mem_uIcc.mpr (.inr ⟨by linarith, by linarith⟩)
  have nonzero : value 2 ≠ 0 := by
    rw [worthTwo]
    exact two_ne_zero
  exact (rounds_div finite finiteTwo nonzero).mem_uIcc gridLeft gridRight left.lt_ceiling
    right.lt_ceiling half

/-- A bracket has its estimate in the middle. -/
structure Centred (bracket : Bracket) : Prop where
  left : Addable bracket.left
  right : Addable bracket.right
  middle : bracket.estimate = middle bracket.left bracket.right

/-- A bracket is contained in another one. -/
structure Within (inner outer : Bracket) : Prop where
  left : Between outer.left outer.right inner.left
  right : Between outer.left outer.right inner.right

/-- The estimate takes the place of one of both ends. -/
theorem shrink_cases (f : Float → Float) (left right estimate : Float) :
    shrink f left right estimate = (left, estimate) ∨
      shrink f left right estimate = (estimate, right) := by
  -- Which end it is depends on the product of the values, but one it is.
  unfold shrink
  split
  · exact .inl rfl
  · exact .inr rfl

/-- A step of false position takes the crossing of a chord for an estimate, and for one end. -/
theorem falsePosition_cases {f : Float → Float} {previous next : Bracket}
    (moved : previous.falsePosition f = some next) :
    (f previous.right == f previous.left) = false ∧
      next.estimate = chordRoot previous.left previous.right (f previous.left) (f previous.right) ∧
      (next.left = previous.left ∧ next.right = next.estimate ∨
        next.left = next.estimate ∧ next.right = previous.right) := by
  -- The step is only made when the values at the ends differ.
  unfold falsePosition at moved
  dsimp only at moved
  split_ifs at moved with level
  obtain rfl := Option.some.inj moved
  refine ⟨Bool.eq_false_iff.mpr level, rfl, ?_⟩
  rcases shrink_cases f previous.left previous.right (chordRoot previous.left previous.right
    (f previous.left) (f previous.right)) with kept | kept
  · exact .inl (by rw [kept]; exact ⟨rfl, rfl⟩)
  · exact .inr (by rw [kept]; exact ⟨rfl, rfl⟩)

/-- A bracket is contained in another one if the values of its ends are. -/
theorem within_iff {inner outer : Bracket} (centred : inner.Centred)
    (centredOuter : outer.Centred) : inner.Within outer ↔
      Set.uIcc (value inner.left) (value inner.right) ⊆
        Set.uIcc (value outer.left) (value outer.right) := by
  -- Doubles lie between others if their values do, and then intervals can be compared.
  have between {x : Float} (finite : x.isFinite = true) :=
    between_iff centredOuter.left.finite centredOuter.right.finite finite
  rw [Set.uIcc_subset_uIcc_iff_mem, ← between centred.left.finite,
    ← between centred.right.finite]
  constructor
  · rintro ⟨left, right⟩
    exact ⟨left, right⟩
  · rintro ⟨left, right⟩
    exact ⟨left, right⟩

namespace Within

variable {inner middle outer : Bracket}

/-- A bracket is contained in itself. -/
theorem refl (centred : outer.Centred) : outer.Within outer :=
  (within_iff centred centred).mpr subset_rfl

/-- What is contained in a bracket is contained in all that contain it. -/
theorem trans (first : inner.Within middle) (centred : inner.Centred)
    (centredMiddle : middle.Centred) (centredOuter : outer.Centred)
    (second : middle.Within outer) : inner.Within outer :=
  -- The order of the values of nested intervals is that of sets.
  (within_iff centred centredOuter).mpr
    (((within_iff centred centredMiddle).mp first).trans
      ((within_iff centredMiddle centredOuter).mp second))

end Within

namespace Centred

variable {bracket : Bracket} {f : Float → Float}

/-- A search starts from the middle. -/
theorem start (left : Addable a) (right : Addable b) : (start a b).Centred :=
  -- The first bracket is made with its estimate in the middle.
  ⟨left, right, rfl⟩

/-- The estimate of a bracket that has it in the middle is between the ends. -/
theorem estimate_mem_uIcc (centred : bracket.Centred) :
    bracket.estimate.isFinite = true ∧
      value bracket.estimate ∈ Set.uIcc (value bracket.left) (value bracket.right) := by
  -- The middle of ends that can be added lies between them.
  rw [centred.middle]
  exact middle_mem_uIcc centred.left centred.right

/-- Bisection keeps the estimate in the middle, of a bracket within the one before. -/
theorem bisect {next : Bracket} (centred : bracket.Centred) (moved : bracket.bisect f = some next) :
    next.Centred ∧ next.Within bracket := by
  obtain ⟨finite, inside⟩ := centred.estimate_mem_uIcc
  have addable := centred.left.of_mem_uIcc centred.right finite inside
  have between {x : Float} (finite : x.isFinite = true) :=
    between_iff centred.left.finite centred.right.finite finite
  unfold Bracket.bisect at moved
  -- The estimate takes the place of one end, and the other one stays.
  rcases shrink_cases f bracket.left bracket.right bracket.estimate with kept | kept
  · rw [kept] at moved
    cases moved
    exact ⟨⟨centred.left, addable, rfl⟩,
      (between centred.left.finite).mpr Set.left_mem_uIcc, (between finite).mpr inside⟩
  · rw [kept] at moved
    cases moved
    exact ⟨⟨addable, centred.right, rfl⟩,
      (between finite).mpr inside, (between centred.right.finite).mpr Set.right_mem_uIcc⟩

end Centred

end Bracket

namespace Shrinking

variable {f : Float → Float} {rule : Shrinking f} {tolerance : Number}

/-- Each bracket of a search is made from the one before. -/
theorem isChain_heads (limit : Nat) : ∀ bracket : Bracket,
    (rule.heads tolerance limit bracket).IsChain fun previous next =>
      rule.advance previous = some next := by
  -- The induction is on the number of steps that are allowed.
  induction limit with
  | zero => exact fun bracket => .singleton bracket
  | succ limit ih =>
    intro bracket
    unfold heads
    split_ifs
    · -- A bracket without a next one is the last, as is one that is narrow enough.
      cases moved : rule.advance bracket with
      | none => exact .singleton bracket
      | some next =>
        dsimp only
        rw [List.isChain_cons, head?_heads]
        exact ⟨fun other same => Option.some.inj same ▸ moved, ih next⟩
    · exact .singleton bracket

/-- What the first bracket has, and steps of a given kind keep, each bracket has at its place. -/
theorem holds_heads {holds : Nat → Bracket → Prop} {given : Bracket → Bracket → Prop}
    {limit : Nat} {bracket : Bracket}
    (chain : (rule.heads tolerance limit bracket).IsChain given) (start : holds 0 bracket)
    (step : ∀ {place : Nat} {previous next : Bracket}, holds place previous →
      rule.advance previous = some next → given previous next → holds (place + 1) next) :
    ∀ {place : Nat} {head : Bracket},
      (rule.heads tolerance limit bracket)[place]? = some head → holds place head := by
  -- The induction follows the brackets from the first one on.
  intro place
  induction place with
  | zero =>
    intro head found
    rw [← List.head?_eq_getElem?, head?_heads] at found
    cases found
    exact start
  | succ place ih =>
    intro head found
    obtain ⟨within, rfl⟩ := List.getElem?_eq_some_iff.mp found
    have moved := List.isChain_iff_getElem.mp (isChain_heads limit bracket) place within
    have kind := List.isChain_iff_getElem.mp chain place within
    exact step (ih (List.getElem?_eq_getElem (Nat.lt_of_succ_lt within))) moved kind

/-- What the first bracket has, and every step keeps, all brackets of a search have. -/
theorem forall_heads {holds : Bracket → Prop} {limit : Nat} {bracket : Bracket}
    (start : holds bracket)
    (step : ∀ {previous next : Bracket}, holds previous → rule.advance previous = some next →
      holds next) : ∀ head ∈ rule.heads tolerance limit bracket, holds head := by
  -- This is the statement about places, with a property that does not mention them.
  intro head member
  obtain ⟨place, found⟩ := List.getElem?_of_mem member
  refine @holds_heads f rule tolerance (fun _ => holds) _ limit bracket
    (isChain_heads limit bracket) start ?_ place head found
  intro place previous next before moved _
  exact step before moved

end Shrinking

namespace Root

/--
Bisection of doubles whose sums are within their range goes through nested brackets.

Whatever the function, each bracket is contained in the one before, each estimate lies between the
ends of its bracket, and the search ends with an estimate between the two points it started from.
-/
theorem bisection_nested {f : Float → Float} {a b : Float} (left : Addable a) (right : Addable b)
    (tolerance limit : Number) :
    let brackets := (Shrinking.bisection f).heads tolerance (Bracket.stepsBelow limit) (.start a b)
    (brackets.IsChain fun previous next => next.Within previous) ∧
      (∀ head ∈ brackets, Between head.left head.right head.estimate) ∧
        ∃ m, estimate .bisection f tolerance limit a b = .ok ⟨m, brackets.length - 1⟩ ∧
          Between a b m := by
  intro brackets
  have start : (Bracket.start a b).Centred := .start left right
  have bisects : Shrinking.ofMethod? f .bisection = some (.bisection f) := rfl
  -- All brackets have their estimate in the middle, and are within the first one.
  have each : ∀ head ∈ brackets, head.Centred ∧ head.Within (.start a b) := by
    refine Shrinking.forall_heads ⟨start, .refl start⟩ ?_
    rintro previous next ⟨centred, inside⟩ moved
    obtain ⟨kept, nested⟩ := centred.bisect moved
    exact ⟨kept, nested.trans kept centred start inside⟩
  -- A step of bisection keeps the estimate in the middle, and so within the bracket.
  have chain : brackets.IsChain fun previous next => next.Within previous := by
    refine (Shrinking.isChain_heads _ _).imp_of_mem_imp ?_
    intro previous next member _ moved
    exact ((each previous member).1.bisect moved).2
  refine ⟨chain, fun head member => ?_, ?_⟩
  · obtain ⟨centred, -⟩ := each head member
    obtain ⟨finite, between⟩ := centred.estimate_mem_uIcc
    exact (between_iff centred.left.finite centred.right.finite finite).mpr between
  · -- The search ends with the estimate of the last bracket, which is within the first.
    obtain ⟨last, final, ended⟩ := Shrinking.estimate_eq_heads bisects tolerance limit a b
    obtain ⟨centred, inside⟩ := each last (List.mem_of_getLast? final)
    obtain ⟨finite, between⟩ := centred.estimate_mem_uIcc
    refine ⟨last.estimate, ended, (between_iff left.finite right.finite finite).mpr ?_⟩
    exact (Bracket.within_iff centred start).mp inside between

/-- From one down to the largest negative double, two halves are taken and none is left. -/
theorem bisection_nested_letter :
    Addable 1 ∧ Addable (-5e-324) ∧
      ∃ brackets : List Bracket, brackets.length = 3 ∧
        (brackets.IsChain fun previous next => next.Within previous) ∧
        ∃ m, estimate .bisection letter.program.curve (.real 0) (.whole 2) 1 (-5e-324) =
          .ok ⟨m, 2⟩ ∧ Between 1 (-5e-324) m := by
  -- Two steps are allowed, and none of them ends the search early.
  have left : Addable 1 := .of_exponent_le (by decide)
  have right : Addable (-5e-324) := .of_exponent_le (by decide +kernel)
  obtain ⟨nested, -, m, ended, between⟩ :=
    bisection_nested left right (.real 0) (.whole 2) (f := letter.program.curve)
  have three : ((Shrinking.bisection letter.program.curve).heads (.real 0)
      (Bracket.stepsBelow (.whole 2)) (.start 1 (-5e-324))).length = 3 := by decide +kernel
  rw [three] at ended
  exact ⟨left, right, _, three, nested, m, ended, between⟩

end Root

end Formula
