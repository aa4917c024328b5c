import Formula.Proofs.Decimal.Rounding
import Formula.Proofs.Double.Difference
import Formula.Proofs.Number
import Formula.Proofs.Postfix.Pointwise
import Formula.Proofs.Root.Nesting

/-! From either end of an interval, a search goes through the same brackets, and to one root. -/

namespace Formula

open Double (Alike Vanishes vanishes_comm alike_of_zeros)

/-- A magnitude beyond a tolerance of at least zero is that of a number on a side of zero. -/
theorem Number.signed_of_isBelow {tolerance : Number} {y : Float}
    (nonnegative : Number.isAtMost (.whole 0) tolerance = true)
    (beyond : tolerance.isBelow (.real y.abs) = true) : y < 0 ∨ 0 < y := by
  rw [Double.lt_zero_iff, Double.zero_lt_iff]
  by_contra unsigned
  -- A double that is neither below nor above zero has no side.
  have nowhere : Double.side (Double.parts y) = none := by
    cases lies : Double.side (Double.parts y) with
    | none => rfl
    | some sign => cases sign <;> simp [lies] at unsigned
  -- Otherwise the magnitude is zero or undefined, and not beyond anything.
  rcases Double.abs_of_side_none nowhere with zero | undefined
  · rw [zero, not_isBelow_zero nonnegative] at beyond
    cases beyond
  · rw [undefined] at beyond
    cases tolerance with
    | whole n => cases beyond
    | real x =>
      rw [Number.isBelow_real, Double.lt_iff_parts] at beyond
      cases found : Double.parts x <;> rw [found] at beyond <;> cases beyond

/-- The order of the points does not matter for opposite signs. -/
theorem Straddles.swap {f : Float → Float} {a b : Float} (straddles : Straddles f a b) :
    Straddles f b a :=
  (Or.symm straddles).imp And.symm And.symm

/-- Values on different sides of zero differ. -/
theorem Straddles.beq_eq_false {f : Float → Float} {a b : Float} (straddles : Straddles f a b) :
    (f b == f a) = false := by
  rw [Bool.eq_false_iff, Ne, Double.beq_iff_parts]
  rintro ⟨like, -⟩
  -- Equal values would be on the same side.
  have sides := like.side_eq
  unfold Straddles at straddles
  simp only [Double.lt_zero_iff, Double.zero_lt_iff] at straddles
  rcases straddles with ⟨left, right⟩ | ⟨left, right⟩ <;> rw [left, right] at sides <;>
    cases sides

section

variable {f : Float → Float} (zeros : Alike (f 0) (f (-0.0)))
include zeros

/-- At points that are alike, a value lies on the same side of zero. -/
theorem signs_of_alike {x y : Float} (alike : Alike x y) :
    (f x < 0 ↔ f y < 0) ∧ (0 < f x ↔ 0 < f y) := by
  -- Values at points that are alike are alike, and lie on the same side.
  have sides := (alike_of_zeros zeros alike).side_eq
  rw [Double.lt_zero_iff, Double.lt_zero_iff, Double.zero_lt_iff, Double.zero_lt_iff, sides]
  exact ⟨Iff.rfl, Iff.rfl⟩

/-- Points that are like those that straddle a root straddle it themselves. -/
theorem Straddles.of_alike {a b c d : Float} (straddles : Straddles f a b) (left : Alike a c)
    (right : Alike b d) : Straddles f c d := by
  -- The signs at both points carry over, and they are all that straddling says.
  obtain ⟨belowLeft, aboveLeft⟩ := signs_of_alike zeros left
  obtain ⟨belowRight, aboveRight⟩ := signs_of_alike zeros right
  unfold Straddles at straddles ⊢
  rwa [← belowLeft, ← aboveLeft, ← belowRight, ← aboveRight]

end

namespace Bracket

/-- Pairs of points that straddle a root are the same, once one of them is turned around. -/
structure Mirrored (f : Float → Float) (a b c d : Float) : Prop where
  left : Alike a d
  right : Alike b c
  straddles : Straddles f a b

/-- Two searches have like estimates, and mirrored ends for as long as they go on. -/
structure Abreast (f : Float → Float) (tolerance : Number) (bracket other : Bracket) : Prop where
  estimate : Alike bracket.estimate other.estimate
  mirrored : bracket.isCoarse f tolerance = true →
    Mirrored f bracket.left bracket.right other.left other.right

variable {f : Float → Float} {a b c d p q : Float} {tolerance : Number}

/-- The middle does not depend on the order of the ends. -/
theorem alike_middle (left : Alike a d) (right : Alike b c) : Alike (middle a b) (middle c d) := by
  -- Addition does not depend on the order, and halving keeps what is alike.
  unfold middle
  rw [Double.add_comm_double c d]
  exact (left.add right).div 2

/-- The root of a chord that is not level does not depend on the order of the ends. -/
theorem alike_chordRoot (left : Alike a d) (right : Alike b c) (steep : (q == p) = false) :
    Alike (chordRoot a b p q) (chordRoot c d q p) := by
  -- Both the numerator and the denominator change their signs.
  refine .div_neg ?_ ?_ (Double.sub_ne_zero_parts steep)
  · exact Double.like_parts_sub (left.mul (.refl q)) (right.mul (.refl p))
  · exact Double.like_parts_sub (.refl q) (.refl p)

/-- Over a bracket that straddles a root, the chord is not level. -/
theorem falsePosition_of_straddles {bracket : Bracket}
    (straddles : Straddles f bracket.left bracket.right) :
    let m := chordRoot bracket.left bracket.right (f bracket.left) (f bracket.right)
    let ends := Bracket.shrink f bracket.left bracket.right m
    bracket.falsePosition f = some ⟨ends.1, ends.2, m⟩ := by
  -- Only a level chord would end the search, and its values would be equal.
  simp only [falsePosition, straddles.beq_eq_false, Bool.false_eq_true, if_false]

section

variable (zeros : Alike (f 0) (f (-0.0)))
include zeros

/-- Brackets that are mirrored are so after an estimate has taken the place of an end of each. -/
theorem Mirrored.shrink (mirrored : Mirrored f a b c d) (probes : Alike p q)
    (decisive : Decisive f a p) (decisiveOther : Decisive f c q) :
    Mirrored f (shrink f a b p).1 (shrink f a b p).2 (shrink f c d q).1 (shrink f c d q).2 := by
  obtain ⟨left, right, straddles⟩ := mirrored
  have turned : Straddles f c d := (straddles.of_alike zeros left right).swap
  have kept := (straddles_shrink straddles).mpr decisive
  have keptOther := (straddles_shrink turned).mpr decisiveOther
  -- If both searches replaced the same end, one of them would have lost the change of sign.
  rcases shrink_cases f a b p with first | first <;>
    rcases shrink_cases f c d q with second | second <;>
    rw [first] at kept ⊢ <;> rw [second] at keptOther ⊢
  · exact absurd straddles
      (kept.not_both (keptOther.of_alike zeros right.symm probes.symm))
  · exact ⟨left, probes, kept⟩
  · exact ⟨probes, right, kept⟩
  · have beyond := (keptOther.of_alike zeros probes.symm left.symm).swap
    exact absurd straddles (beyond.not_both kept.swap)

/-- At like estimates, both searches go on, or neither of them does. -/
theorem isCoarse_of_alike {bracket other : Bracket}
    (estimates : Alike bracket.estimate other.estimate) :
    bracket.isCoarse f tolerance = other.isCoarse f tolerance := by
  -- A search goes on by the magnitude of its last value, which is the same for both.
  unfold isCoarse
  rw [(alike_of_zeros zeros estimates).abs]

/-- The values at mirrored ends are those at the other ends. -/
theorem Mirrored.values (mirrored : Mirrored f a b c d) : f c = f b ∧ f d = f a := by
  -- Values that lie on a side of zero and are alike are equal.
  obtain ⟨left, right, straddles⟩ := mirrored
  have signedLeft : f a < 0 ∨ 0 < f a := straddles.imp And.left And.left
  have signedRight : f b < 0 ∨ 0 < f b := (Or.symm straddles).imp And.right And.right
  exact ⟨((alike_of_zeros zeros right).eq_of_signed signedRight).symm,
    ((alike_of_zeros zeros left).eq_of_signed signedLeft).symm⟩

end

end Bracket

namespace Shrinking

variable {f : Float → Float}

/-- The product of values that an iteration looks at is not rounded to zero, if it is negative. -/
def Clear (rule : Shrinking f) (previous next : Bracket) : Prop :=
  Straddles f previous.left (rule.probe previous next) →
    ¬Vanishes (f previous.left) (f (rule.probe previous next))

instance (rule : Shrinking f) (previous next : Bracket) : Decidable (rule.Clear previous next) :=
  inferInstanceAs (Decidable (_ → _))

/-- Two searches by a method stay abreast, as long as no product is rounded to zero. -/
def StaysAbreast (rule : Shrinking f) (tolerance : Number) : Prop :=
  ∀ {bracket other : Bracket}, bracket.Abreast f tolerance other →
    bracket.isCoarse f tolerance = true → ∃ next nextOther, rule.advance bracket = some next ∧
      rule.advance other = some nextOther ∧
      (rule.Clear bracket next → rule.Clear other nextOther →
        next.Abreast f tolerance nextOther)

variable {rule : Shrinking f} {tolerance : Number} (zeros : Alike (f 0) (f (-0.0)))
  (nonnegative : Number.isAtMost (.whole 0) tolerance = true)

include zeros nonnegative in
/-- Searches by false position stay abreast of each other. -/
theorem falsePosition_staysAbreast : (falsePosition f).StaysAbreast tolerance := by
  intro bracket other abreast coarse
  have mirrored := abreast.mirrored coarse
  obtain ⟨valueLeft, valueRight⟩ := mirrored.values zeros
  have turned := (mirrored.straddles.of_alike zeros mirrored.left mirrored.right).swap
  refine ⟨_, _, Bracket.falsePosition_of_straddles mirrored.straddles,
    Bracket.falsePosition_of_straddles turned, fun clear clearOther => ?_⟩
  -- Both chords cross zero at the same point.
  have crossings :
      Alike (Bracket.chordRoot bracket.left bracket.right (f bracket.left) (f bracket.right))
        (Bracket.chordRoot other.left other.right (f other.left) (f other.right)) := by
    rw [valueLeft, valueRight]
    exact Bracket.alike_chordRoot mirrored.left mirrored.right mirrored.straddles.beq_eq_false
  refine ⟨crossings, fun beyond => ?_⟩
  -- The estimate is decisive while its value is beyond the tolerance.
  have signed := Number.signed_of_isBelow nonnegative beyond
  obtain ⟨below, above⟩ := signs_of_alike zeros crossings
  exact mirrored.shrink zeros crossings ⟨signed, clear⟩ ⟨signed.imp below.mp above.mp, clearOther⟩

include zeros nonnegative in
/-- Bisections stay abreast of each other. -/
theorem bisection_staysAbreast : (bisection f).StaysAbreast tolerance := by
  -- The estimates are there already, so that they replace the ends before the middles are taken.
  intro bracket other abreast coarse
  have mirrored := abreast.mirrored coarse
  refine ⟨_, _, rfl, rfl, fun clear clearOther => ?_⟩
  have signed := Number.signed_of_isBelow nonnegative coarse
  have decisive : Decisive f bracket.left bracket.estimate := ⟨signed, clear⟩
  -- What the estimate of one search decides, that of the other decides too.
  have decisiveOther : Decisive f other.left other.estimate := by
    obtain ⟨below, above⟩ := signs_of_alike zeros abreast.estimate
    exact ⟨signed.imp below.mp above.mp, clearOther⟩
  have kept := mirrored.shrink zeros abreast.estimate decisive decisiveOther
  exact ⟨Bracket.alike_middle kept.left kept.right, fun _ => kept⟩

include zeros nonnegative in
/-- By either method, two searches stay abreast of each other. -/
theorem staysAbreast_ofMethod? {method : Method} (shrinks : ofMethod? f method = some rule) :
    rule.StaysAbreast tolerance := by
  -- Only the two methods that shrink brackets by a rule are meant.
  cases method with
  | regulaFalsi =>
    cases shrinks
    exact falsePosition_staysAbreast zeros nonnegative
  | bisection =>
    cases shrinks
    exact bisection_staysAbreast zeros nonnegative
  | brent => cases shrinks

/-- How far two searches that stay abreast come is the same, and so is the last estimate. -/
theorem refine_abreast (abreast : rule.StaysAbreast tolerance)
    (zeros : Alike (f 0) (f (-0.0))) (limit : Nat) : ∀ (done : Nat) {bracket other : Bracket},
    bracket.Abreast f tolerance other →
    (rule.heads tolerance limit bracket).IsChain rule.Clear →
    (rule.heads tolerance limit other).IsChain rule.Clear →
    let run := Bracket.refine f rule.advance tolerance limit done bracket
    let runOther := Bracket.refine f rule.advance tolerance limit done other
    Alike run.1.estimate runOther.1.estimate ∧ run.2 = runOther.2 := by
  -- Every iteration is made by both, or by neither of them.
  induction limit with
  -- Without further iterations, the estimates are those at hand.
  | zero => exact fun done bracket other related _ _ => ⟨related.estimate, rfl⟩
  | succ limit ih =>
    intro done bracket other related clear clearOther
    -- At like estimates, both searches go on or both end.
    have both : bracket.isCoarse f tolerance = other.isCoarse f tolerance :=
      Bracket.isCoarse_of_alike zeros related.estimate
    unfold heads at clear clearOther
    unfold Bracket.refine
    rw [← both] at clearOther ⊢
    split_ifs at clear clearOther ⊢ with coarse
    · -- A step of each keeps them abreast, since their first products are clear.
      obtain ⟨next, nextOther, moved, movedOther, kept⟩ := abreast related coarse
      rw [moved] at clear ⊢
      rw [movedOther] at clearOther ⊢
      obtain ⟨first, later⟩ := List.isChain_cons.mp clear
      obtain ⟨firstOther, laterOther⟩ := List.isChain_cons.mp clearOther
      exact ih (done + 1) (kept (first next (head?_heads ..))
        (firstOther nextOther (head?_heads ..))) later laterOther
    · exact ⟨related.estimate, rfl⟩

end Shrinking

/-- Zeros are rounded to themselves. -/
theorem Decimal.round_zero (places : Int) :
    Decimal.round places 0 = 0 ∧ Decimal.round places (-0.0) = -0.0 := by
  -- A coefficient of zero stays zero, whatever digits are dropped.
  have none (d : Decimal) (empty : d.coefficient = 0) : (d.toPlaces places).coefficient = 0 := by
    unfold toPlaces
    split_ifs
    · exact empty
    · change dropDigits _ d.coefficient = 0
      rw [empty, dropDigits_eq, nearestQuotient_eq_zero (by positivity), Nat.mul_zero]
      positivity
  have zero (negative : Bool) (d : Decimal) (empty : d.coefficient = 0) :
      (d.toPlaces places).toFloat negative = Double.ofPattern negative 0 :=
    if_pos (none d empty)
  have digits {x : Float} (empty : Double.significand x = 0) : (magnitude x).coefficient = 0 := by
    unfold magnitude
    dsimp only
    split_ifs <;> rw [empty] <;> exact Nat.zero_mul _
  exact ⟨zero false _ (digits rfl), zero true _ (digits rfl)⟩

/-- Like numbers are rounded alike, or are both too large for that; no fraction of them is. -/
theorem roundToPlaces_of_alike (places : Int) {x y : Float} (alike : Alike x y) :
    (∃ u v, roundToPlaces places x = .ok u ∧ roundToPlaces places y = .ok v ∧ Alike u v) ∨
      places < 0 ∧ roundToPlaces places x = .error .roundedTooLarge ∧
        roundToPlaces places y = .error .roundedTooLarge := by
  obtain ⟨zero, negativeZero⟩ := Decimal.round_zero places
  -- Both zeros are finite, and stay so.
  have found : roundToPlaces places 0 = .ok 0 ∧ roundToPlaces places (-0.0) = .ok (-0.0) := by
    unfold roundToPlaces
    rw [zero, negativeZero]
    exact ⟨rfl, rfl⟩
  rcases alike.eq_or with rfl | ⟨rfl | rfl, rfl | rfl⟩
  · -- The same number is rounded in the same way.
    by_cases fits : x.isFinite && !(Decimal.round places x).isFinite
    · obtain ⟨finite, beyond⟩ := (Bool.and_eq_true ..).mp fits
      have large : roundToPlaces places x = .error .roundedTooLarge := if_pos fits
      have negative : places < 0 := by
        by_contra nonneg
        rw [Decimal.isFinite_round (by omega) finite] at beyond
        cases beyond
      exact .inr ⟨negative, large, large⟩
    · have small : roundToPlaces places x = .ok (Decimal.round places x) := if_neg fits
      exact .inl ⟨_, _, small, small, .refl _⟩
  -- Otherwise both are zeros, and are rounded to themselves.
  · exact .inl ⟨_, _, found.1, found.1, .refl _⟩
  · exact .inl ⟨_, _, found.1, found.2, alike⟩
  · exact .inl ⟨_, _, found.2, found.1, alike⟩
  · exact .inl ⟨_, _, found.2, found.2, .refl _⟩

/-- An expression that has a value at one number has values at all. -/
theorem Expression.evaluate_eq_curve {e : Expression} {x v : Float}
    (valued : e.evaluate (some x) = .ok v) (y : Float) :
    e.evaluate (some y) = .ok (e.program.curve y) := by
  have ran := evaluate_eq_ok_iff.mp valued
  rcases Program.evaluate_outcome (some x) (some y) rfl e.program with
    ⟨fault, failed, -⟩ | ⟨value, other, -, found⟩
  · -- A program that fails at one number fails at all of them.
    cases failed.symm.trans ran
  · rw [evaluate, Program.curve, found]

/-- No product of values with opposite signs that a search looks at is rounded to zero. -/
def Shrinking.StaysClear {f : Float → Float} (rule : Shrinking f) (tolerance limit : Number)
    (a b : Float) : Prop :=
  f a * f b < 0 →
    (rule.heads tolerance (Bracket.stepsBelow limit) (.start a b)).IsChain rule.Clear

instance {f : Float → Float} (rule : Shrinking f) (tolerance limit : Number) (a b : Float) :
    Decidable (rule.StaysClear tolerance limit a b) :=
  inferInstanceAs (Decidable (_ → _))

namespace Root

/-- An expression without the variable has no interval to search. -/
theorem checkInterval_of_constant {e : Expression} {left right : Float}
    (independent : e.dependsOnX = false) :
    checkInterval e left right = .error (.search .constant) := by
  -- The variable is looked for before the values are.
  simp [checkInterval, independent, throw, throwThe, MonadExceptOf.throw, bind, Except.bind]

/-- An interval is refused, or the product of the values at its ends is negative. -/
theorem checkInterval_cases {e : Expression} {left right : Float}
    (valueLeft : e.evaluate (some left) = .ok (e.program.curve left))
    (valueRight : e.evaluate (some right) = .ok (e.program.curve right)) :
    (∃ fault, checkInterval e left right = .error (.search fault) ∧
        checkInterval e right left = .error (.search fault)) ∨
      e.program.curve left * e.program.curve right < 0 ∧
        e.program.curve right * e.program.curve left < 0 ∧
        checkInterval e left right = .ok () ∧ checkInterval e right left = .ok () := by
  by_cases depends : e.dependsOnX = true
  · -- A product is as negative in the other order of its factors.
    have product : e.program.curve right * e.program.curve left < 0 ↔
        e.program.curve left * e.program.curve right < 0 := by
      rw [Double.mul_lt_zero_iff, Double.mul_lt_zero_iff, vanishes_comm]
      exact and_congr_left' ⟨Straddles.swap, Straddles.swap⟩
    rw [checkInterval_eq depends valueLeft valueRight,
      checkInterval_eq depends valueRight valueLeft]
    by_cases negative : e.program.curve left * e.program.curve right < 0
    · have turned := product.mpr negative
      rw [if_pos negative, if_pos turned]
      exact .inr ⟨negative, turned, rfl, rfl⟩
    · rw [if_neg negative, if_neg (negative ∘ product.mp)]
      exact .inl ⟨_, rfl, rfl⟩
  · -- Without the variable, both orders are refused for the same reason.
    have independent : e.dependsOnX = false := by simpa using depends
    exact .inl ⟨_, checkInterval_of_constant independent, checkInterval_of_constant independent⟩

/--
Over an interval that is turned around, a search by false position or by bisection is the same.

It is refused for the same reason, or makes the same number of iterations and comes to the same
root, zeros of either sign and undefined values being counted equal. Only the rounding to tens,
hundreds and so on may take the root beyond all doubles, and then it does so for both.
-/
theorem find_reversed {settings : Settings} {options : SearchOptions} {e : Expression}
    {method : Method} {rule : Shrinking e.program.curve} {a b limit tolerance : Number}
    {left right v w : Float} {decimals : Int} (chosen : settings.methodFor options = .ok method)
    (shrinks : Shrinking.ofMethod? e.program.curve method = some rule)
    (limited : settings.maxIterationsFor options = .ok limit)
    (bounded : settings.toleranceFor options = .ok tolerance)
    (nonnegative : Number.isAtMost (.whole 0) tolerance = true)
    (rounded : settings.decimalsFor options = .number (.whole decimals))
    (atLeft : a.toFloat = .ok left) (atRight : b.toFloat = .ok right)
    (atZero : e.evaluate (some 0) = .ok v) (atNegativeZero : e.evaluate (some (-0.0)) = .ok w)
    (zeros : Alike v w)
    (clear : rule.StaysClear tolerance limit left right)
    (clearOther : rule.StaysClear tolerance limit right left) :
    (∃ fault, find settings options e a b = .error (.search fault) ∧
      find settings options e b a = .error (.search fault)) ∨
    ∃ run other, find settings options e a b = .ok run ∧
      find settings options e b a = .ok other ∧
      run.estimate.iterations = other.estimate.iterations ∧
      ((∃ root rootOther, run.root = .ok root ∧ other.root = .ok rootOther ∧
          Alike root rootOther) ∨
        decimals < 0 ∧ run.root = .error (.number .roundedTooLarge) ∧
          other.root = .error (.number .roundedTooLarge)) := by
  -- What is given about the values at zeros is about the curve.
  have valued := Expression.evaluate_eq_curve atZero
  have alike : Alike (e.program.curve 0) (e.program.curve (-0.0)) := by
    rw [valued 0, Except.ok.injEq] at atZero
    rw [valued (-0.0), Except.ok.injEq] at atNegativeZero
    rwa [atZero, atNegativeZero]
  -- The same interval is accepted or refused, whichever end comes first.
  rcases checkInterval_cases (valued left) (valued right) with
    ⟨fault, refused, refusedOther⟩ | ⟨negative, negativeOther, accepted, acceptedOther⟩
  · exact .inl ⟨fault, (find_refused_iff chosen atLeft atRight fault).mpr refused,
      (find_refused_iff chosen atRight atLeft fault).mpr refusedOther⟩
  · -- Both searches start abreast of each other, and stay so.
    have start : (Bracket.start left right).Abreast e.program.curve tolerance
        (Bracket.start right left) :=
      ⟨Bracket.alike_middle (.refl left) (.refl right), fun _ =>
        ⟨.refl left, .refl right, (Double.mul_lt_zero_iff.mp negative).1⟩⟩
    obtain ⟨points, counts⟩ := Shrinking.refine_abreast
      (Shrinking.staysAbreast_ofMethod? alike nonnegative shrinks) alike
      (Bracket.stepsBelow limit) 0 start (clear negative) (clearOther negativeOther)
    -- Both runs are those of the rule that the method shrinks its brackets by.
    have searched (a b : Float) := Shrinking.estimate_eq_search shrinks tolerance limit a b
    have found := find_of_accepted chosen limited bounded atLeft atRight accepted (searched _ _)
    have foundOther :=
      find_of_accepted chosen limited bounded atRight atLeft acceptedOther (searched _ _)
    refine .inr ⟨_, _, found, foundOther, counts, ?_⟩
    -- Both estimates are rounded to the same number of places.
    have rounding (run : SearchRun) (same : run.decimals = settings.decimalsFor options) :
        run.root = (roundToPlaces decimals run.estimate.point).mapError .number := by
      rw [SearchRun.root, same, rounded]
      rfl
    rw [rounding _ rfl, rounding _ rfl]
    rcases roundToPlaces_of_alike decimals points with
      ⟨root, rootOther, found, foundOther, same⟩ | ⟨large, beyond, beyondOther⟩
    · refine .inl ⟨root, rootOther, ?_, ?_, same⟩
      · exact congrArg _ found
      · exact congrArg _ foundOther
    · exact .inr ⟨large, congrArg _ beyond, congrArg _ beyondOther⟩

/-- From minus one to two the variable vanishes at zero, and from two down at the negative zero. -/
theorem find_reversed_letter :
    letter.evaluate (some 0) = .ok 0 ∧ letter.evaluate (some (-0.0)) = .ok (-0.0) ∧
      Alike 0 (-0.0) ∧ ∃ run other, find {} {} letter (.real (-1)) (.real 2) = .ok run ∧
        find {} {} letter (.real 2) (.real (-1)) = .ok other ∧
        run.estimate.iterations = other.estimate.iterations ∧
        ∃ root rootOther, run.root = .ok root ∧ other.root = .ok rootOther ∧
          Alike root rootOther := by
  have chosen : ({} : Settings).methodFor {} = .ok .regulaFalsi := rfl
  -- No product that either search looks at is rounded to zero.
  have clear : (Shrinking.falsePosition letter.program.curve).StaysClear (.real 1e-10)
      (.whole 100) (-1) 2 := by decide +kernel
  have clearOther : (Shrinking.falsePosition letter.program.curve).StaysClear (.real 1e-10)
      (.whole 100) 2 (-1) := by decide +kernel
  have zeros : Alike 0 (-0.0) := by decide
  have atLeft : (Number.real (-1)).toFloat = .ok (-1) := rfl
  have atRight : (Number.real 2).toFloat = .ok 2 := rfl
  have rounded : ({} : Settings).decimalsFor {} = .number (.whole 10) := rfl
  -- The values at both ends are the ends themselves.
  have accepted : checkInterval letter (-1) 2 = .ok () := by
    rw [checkInterval_eq rfl rfl rfl, if_pos (by decide +kernel)]
  refine ⟨rfl, rfl, zeros, ?_⟩
  rcases find_reversed chosen rfl rfl rfl (by decide +kernel) rounded atLeft atRight rfl rfl zeros
    clear clearOther with ⟨fault, refused, -⟩ | ⟨run, other, found, foundOther, counts, rounded⟩
  · exact absurd refused (unrefused_find rfl rfl accepted fault)
  · rcases rounded with alike | ⟨negative, -⟩
    · exact ⟨run, other, found, foundOther, counts, alike⟩
    · exact absurd negative (by decide)

/-- A curve that rises from a pole at minus one towards a twentieth. -/
def rising : Expression where
  source := "0.05-1/(x+1)"
  tokens := [⟨"0.05", .literal⟩, ⟨"-", .operator⟩, ⟨"1", .literal⟩, ⟨"/", .operator⟩,
    ⟨"(", .leftParen⟩, ⟨"x", .literal⟩, ⟨"+", .operator⟩, ⟨"1", .literal⟩, ⟨")", .rightParen⟩]
  postfixTokens := [⟨"0.05", .literal⟩, ⟨"1", .literal⟩, ⟨"x", .literal⟩, ⟨"1", .literal⟩,
    ⟨"+", .operator⟩, ⟨"/", .operator⟩, ⟨"-", .operator⟩]

/--
A large estimate that is rounded up to a power of ten may be beyond all doubles.

The interval is accepted and no product of values is rounded to zero from either end, but there is
no root.
-/
theorem rising_too_large :
    let options : SearchOptions := { maxIterations := some 1, decimals := some (-308) }
    Expression.ofText {} {} "0.05-1/(x+1)" = .ok rising ∧
      rising.evaluate (some 0) = rising.evaluate (some (-0.0)) ∧
      ∀ ends ∈ [((1 : Float), (1.79e308 : Float)), (1.79e308, 1)],
        (Shrinking.falsePosition rising.program.curve).StaysClear (.real 1e-10) (.whole 1)
          ends.1 ends.2 ∧
        ∃ run, find {} options rising (.real ends.1) (.real ends.2) = .ok run ∧
          run.root = .error (.number .roundedTooLarge) := by
  intro options
  have chosen : ({} : Settings).methodFor options = .ok .regulaFalsi := rfl
  have clear : ∀ ends ∈ [((1 : Float), (1.79e308 : Float)), (1.79e308, 1)],
      (Shrinking.falsePosition rising.program.curve).StaysClear (.real 1e-10) (.whole 1)
        ends.1 ends.2 ∧ rising.program.curve ends.1 * rising.program.curve ends.2 < 0 ∧
        let point := (Bracket.search rising.program.curve
          (Bracket.falsePosition rising.program.curve) (.real 1e-10) (.whole 1)
          ends.1 ends.2).point
        (point.isFinite && !(Decimal.round (-308) point).isFinite) = true := by
    decide +kernel
  refine ⟨rfl, rfl, fun ends member => ?_⟩
  obtain ⟨visible, negative, large⟩ := clear ends member
  -- The interval is accepted, and its only step ends at an estimate beyond what rounds to a double.
  have valued := Expression.evaluate_eq_curve (e := rising) (x := 0) rfl
  have accepted : checkInterval rising ends.1 ends.2 = .ok () := by
    rw [checkInterval_eq rfl (valued _) (valued _), if_pos negative]
  refine ⟨visible, _, find_of_accepted chosen rfl rfl rfl rfl accepted rfl, ?_⟩
  exact congrArg (Except.mapError Failure.number) (if_pos large)

end Root

end Formula
