import Formula.Number.Arithmetic
import Formula.Proofs.Double.Difference
import Formula.Proofs.Root.Nesting

/-! False position never divides by zero, whatever the function and the points it starts from. -/

namespace Formula

namespace Bracket

variable {f : Float → Float} {previous next : Bracket}

/--
A step of false position divides by a number that is not zero.

The values at the ends are compared, but their difference is divided by. It is rounded to zero only
if they are equal.
-/
theorem falsePosition_divides (moved : previous.falsePosition f = some next) :
    (f previous.right - f previous.left == 0) = false ∧
      Number.realQuotient (previous.left * f previous.right - previous.right * f previous.left)
        (f previous.right - f previous.left) = .ok next.estimate := by
  -- A step is only made where the values differ, and then so does their difference from zero.
  obtain ⟨steep, crossing, -⟩ := falsePosition_cases moved
  have divisor := Double.sub_beq_zero_of_distinct steep
  refine ⟨divisor, ?_⟩
  rw [Number.realQuotient, divisor, crossing]
  rfl

end Bracket

namespace Root

/--
In a search by false position, every division succeeds.

The function, both points, the tolerance and the limit are arbitrary: the search ends, and each
bracket but the first has as its estimate a quotient whose divisor is not zero, though the divisor
is a rounded difference of values that may be near to each other, infinite or undefined.
-/
theorem falsePosition_divisor_ne_zero (f : Float → Float) (tolerance limit : Number)
    (a b : Float) :
    let brackets :=
      -- The search ends at the last bracket, and each bracket is a step away from the one before.
      (Shrinking.falsePosition f).heads tolerance (Bracket.stepsBelow limit) (.start a b)
    (∃ last ∈ brackets.getLast?, estimate .regulaFalsi f tolerance limit a b =
      .ok ⟨last.estimate, brackets.length - 1⟩) ∧
      brackets.IsChain fun previous next =>
        (f previous.right - f previous.left == 0) = false ∧
          Number.realQuotient
            (previous.left * f previous.right - previous.right * f previous.left)
            (f previous.right - f previous.left) = .ok next.estimate := by
  intro brackets
  have shrinks : Shrinking.ofMethod? f .regulaFalsi = some (.falsePosition f) := rfl
  obtain ⟨last, final, ended⟩ := Shrinking.estimate_eq_heads shrinks tolerance limit a b
  refine ⟨⟨last, final, ended⟩, ?_⟩
  refine List.IsChain.imp ?_ (Shrinking.isChain_heads (Bracket.stepsBelow limit) (.start a b))
  intro previous next moved
  exact Bracket.falsePosition_divides moved

end Root

end Formula
