import Formula.Proofs.Double.Sign
import Formula.Proofs.Postfix.Dependence
import Formula.Proofs.Root.Refusal
import Mathlib.Data.List.Chain

/-! Bracketing searches keep a change of sign, unless a product of values is rounded to zero. -/

namespace Formula

open Double (Vanishes mul_lt_zero_iff not_lt_zero_of_zero_lt)

/-- A function has values of opposite signs at two points. -/
def Straddles (f : Float → Float) (a b : Float) : Prop :=
  f a < 0 ∧ 0 < f b ∨ 0 < f a ∧ f b < 0

instance (f : Float → Float) (a b : Float) : Decidable (Straddles f a b) :=
  inferInstanceAs (Decidable (_ ∨ _))

/-- The value at an estimate shows on which side of the root the estimate lies. -/
structure Decisive (f : Float → Float) (left estimate : Float) : Prop where
  nonzero : f estimate < 0 ∨ 0 < f estimate
  visible : Straddles f left estimate → ¬Vanishes (f left) (f estimate)

instance (f : Float → Float) (left estimate : Float) : Decidable (Decisive f left estimate) :=
  decidable_of_iff ((f estimate < 0 ∨ 0 < f estimate) ∧
      (Straddles f left estimate → ¬Vanishes (f left) (f estimate)))
    ⟨fun ⟨nonzero, visible⟩ => ⟨nonzero, visible⟩, fun ⟨nonzero, visible⟩ => ⟨nonzero, visible⟩⟩

/-- Two points that straddle a root with the same third point do not straddle it together. -/
theorem Straddles.not_both {f : Float → Float} {a b c : Float} (first : Straddles f a c)
    (second : Straddles f b c) : ¬Straddles f a b := by
  -- No value is on both sides of zero.
  rintro (⟨below, above⟩ | ⟨above, below⟩)
  · rcases first with ⟨-, last⟩ | ⟨other, -⟩
    · rcases second with ⟨other, -⟩ | ⟨-, other⟩
      · exact not_lt_zero_of_zero_lt above other
      · exact not_lt_zero_of_zero_lt last other
    · exact not_lt_zero_of_zero_lt other below
  · rcases first with ⟨other, -⟩ | ⟨-, last⟩
    · exact not_lt_zero_of_zero_lt above other
    · rcases second with ⟨-, other⟩ | ⟨other, -⟩
      · exact not_lt_zero_of_zero_lt other last
      · exact not_lt_zero_of_zero_lt other below

namespace Bracket

/-- A bracket that is shrunk still straddles the root exactly if the estimate is decisive. -/
theorem straddles_shrink {f : Float → Float} {left right estimate : Float}
    (straddles : Straddles f left right) :
    Straddles f (shrink f left right estimate).1 (shrink f left right estimate).2 ↔
      Decisive f left estimate := by
  -- What is tested is the rounded product, which is negative unless it vanishes.
  have negative : f left * f estimate < 0 ↔
      Straddles f left estimate ∧ ¬Vanishes (f left) (f estimate) := mul_lt_zero_iff
  unfold shrink
  by_cases test : f left * f estimate < 0
  · -- The estimate takes the place of the right end, whose value has the same sign.
    obtain ⟨opposite, visible⟩ := negative.mp test
    rw [if_pos test]
    exact iff_of_true opposite ⟨opposite.symm.imp And.right And.right, fun _ => visible⟩
  · -- The estimate takes the place of the left end, and has to be on the same side.
    rw [if_neg test]
    constructor
    · intro beyond
      have alike : ¬Straddles f left estimate := straddles.not_both beyond
      exact ⟨beyond.imp And.left And.left, fun opposite => absurd opposite alike⟩
    · rintro ⟨nonzero, visible⟩
      have alike : ¬Straddles f left estimate := fun opposite =>
        test (negative.mpr ⟨opposite, visible opposite⟩)
      rcases straddles with ⟨below, above⟩ | ⟨above, below⟩
      · exact .inl ⟨nonzero.resolve_right fun other => alike (.inl ⟨below, other⟩), above⟩
      · exact .inr ⟨nonzero.resolve_left fun other => alike (.inr ⟨above, other⟩), below⟩

end Bracket

/-- A way to shrink brackets: it looks at the function at one point, and moves an end there. -/
structure Shrinking (f : Float → Float) where
  advance : Bracket → Option Bracket
  probe : Bracket → Bracket → Float
  shrinks : ∀ {previous next : Bracket}, advance previous = some next →
    (next.left, next.right) = Bracket.shrink f previous.left previous.right (probe previous next)

namespace Shrinking

/-- False position moves an end to the estimate that it comes to. -/
def falsePosition (f : Float → Float) : Shrinking f where
  advance := Bracket.falsePosition f
  probe _ next := next.estimate
  shrinks := by
    intro previous next moved
    unfold Bracket.falsePosition at moved
    dsimp only at moved
    split_ifs at moved
    cases moved
    rfl

/-- Bisection moves an end to the estimate that it starts from. -/
def bisection (f : Float → Float) : Shrinking f where
  advance := Bracket.bisect f
  probe previous _ := previous.estimate
  shrinks := by
    rintro previous next ⟨⟩
    rfl

/-- How a method shrinks brackets; Brent's search has more than two points in view. -/
def ofMethod? (f : Float → Float) : Method → Option (Shrinking f)
  | .regulaFalsi => some (falsePosition f)
  | .bisection => some (bisection f)
  | .brent => none

variable {f : Float → Float}

/-- The brackets at the beginning of all iterations of a search, and the one at its end. -/
def heads (rule : Shrinking f) (tolerance : Number) : (limit : Nat) → Bracket → List Bracket
  | 0, bracket => [bracket]
  | limit + 1, bracket =>
    if bracket.isCoarse f tolerance then
      match rule.advance bracket with
      | some next => bracket :: rule.heads tolerance limit next
      | none => [bracket]
    else [bracket]

variable {rule : Shrinking f} {tolerance : Number}

/-- A search goes through these brackets, and makes one step fewer than they are. -/
theorem refine_eq_heads (rule : Shrinking f) (tolerance : Number) (limit : Nat) :
    ∀ (done : Nat) (bracket : Bracket),
    (rule.heads tolerance limit bracket).getLast? =
        some (Bracket.refine f rule.advance tolerance limit done bracket).1 ∧
      done + (rule.heads tolerance limit bracket).length =
        (Bracket.refine f rule.advance tolerance limit done bracket).2 + 1 := by
  -- Both follow the same iterations.
  induction limit with
  | zero => exact fun done bracket => ⟨rfl, rfl⟩
  | succ limit ih =>
    intro done bracket
    unfold heads Bracket.refine
    split_ifs
    · cases rule.advance bracket with
      | none => exact ⟨rfl, rfl⟩
      | some next =>
        obtain ⟨last, count⟩ := ih (done + 1) next
        dsimp only
        refine ⟨?_, by rw [List.length_cons]; omega⟩
        rw [List.getLast?_cons, last]
        rfl
    · exact ⟨rfl, rfl⟩

/-- A method that shrinks brackets is carried out as a search by its own rule. -/
theorem estimate_eq_search {method : Method} (shrinks : ofMethod? f method = some rule)
    (tolerance limit : Number) (a b : Float) : Root.estimate method f tolerance limit a b =
      .ok (Bracket.search f rule.advance tolerance limit a b) := by
  -- Only the two methods that shrink brackets are left, and both are carried out alike.
  cases method <;> cases shrinks <;> rfl

/-- A method that shrinks brackets ends with the estimate of the last of them. -/
theorem estimate_eq_heads {method : Method} (shrinks : ofMethod? f method = some rule)
    (tolerance limit : Number) (a b : Float) :
    let brackets := rule.heads tolerance (Bracket.stepsBelow limit) (.start a b)
    ∃ last ∈ brackets.getLast?, Root.estimate method f tolerance limit a b =
      .ok ⟨last.estimate, brackets.length - 1⟩ := by
  -- The search counts its steps from zero.
  obtain ⟨last, count⟩ :=
    refine_eq_heads rule tolerance (Bracket.stepsBelow limit) 0 (.start a b)
  refine ⟨_, last, (estimate_eq_search shrinks tolerance limit a b).trans ?_⟩
  rw [Nat.zero_add] at count
  rw [count, Nat.add_sub_cancel]
  rfl

/-- The first of these brackets is the one that the search starts from. -/
theorem head?_heads (limit : Nat) (bracket : Bracket) :
    (rule.heads tolerance limit bracket).head? = some bracket := by
  -- It is kept whether or not an iteration follows.
  cases limit with
  | zero => rfl
  | succ limit =>
    unfold heads
    split_ifs
    · cases rule.advance bracket <;> rfl
    · rfl

/-- A search keeps a change of sign exactly as long as its estimates are decisive. -/
theorem straddles_heads (limit : Nat) : ∀ {bracket : Bracket},
    Straddles f bracket.left bracket.right →
      ((∀ head ∈ rule.heads tolerance limit bracket, Straddles f head.left head.right) ↔
        (rule.heads tolerance limit bracket).IsChain fun previous next =>
          Decisive f previous.left (rule.probe previous next)) := by
  -- Every iteration shrinks the bracket once.
  induction limit with
  | zero =>
    intro bracket straddles
    exact iff_of_true (fun head member => List.mem_singleton.mp member ▸ straddles) (.singleton _)
  | succ limit ih =>
    intro bracket straddles
    -- Without an iteration there is no estimate that could be wrong.
    have alone : (∀ head ∈ [bracket], Straddles f head.left head.right) ↔
        [bracket].IsChain fun previous next =>
          Decisive f previous.left (rule.probe previous next) :=
      iff_of_true (fun head member => List.mem_singleton.mp member ▸ straddles) (.singleton _)
    unfold heads
    split_ifs
    · cases moved : rule.advance bracket with
      | none => exact alone
      | some next =>
        -- The next bracket straddles the root exactly if the first estimate is decisive.
        have first : Straddles f next.left next.right ↔
            Decisive f bracket.left (rule.probe bracket next) := by
          rw [← Bracket.straddles_shrink straddles, ← rule.shrinks moved]
        dsimp only
        rw [List.isChain_cons, head?_heads]
        constructor
        · intro each
          have shrunk : Straddles f next.left next.right :=
            each next (.tail _ (List.mem_of_head? (head?_heads limit next)))
          have chain := (ih shrunk).mp fun head member => each head (.tail _ member)
          refine ⟨fun other same => ?_, chain⟩
          cases same
          exact first.mp shrunk
        · rintro ⟨decisive, chain⟩
          have shrunk : Straddles f next.left next.right := first.mpr (decisive next rfl)
          exact List.forall_mem_cons.mpr ⟨straddles, (ih shrunk).mpr chain⟩
    · exact alone

end Shrinking

namespace Root

/-- A curve with a value other than zero is that of an expression with a value. -/
theorem evaluate_of_curve {e : Expression} {x : Float}
    (signed : e.program.curve x < 0 ∨ 0 < e.program.curve x) :
    e.evaluate (some x) = .ok (e.program.curve x) := by
  -- Where evaluation fails, the curve is undefined, and on no side of zero.
  unfold Program.curve at signed ⊢
  cases ran : e.program.evaluate (some x) with
  | ok value => simp [Expression.evaluate, ran]
  | error fault =>
    have undefined : ¬(Double.undefinedValue < 0 ∨ 0 < Double.undefinedValue) := by decide
    rw [ran] at signed
    exact absurd signed undefined

/-- The ends of an interval that straddles a root have values. -/
theorem evaluate_of_straddles {e : Expression} {left right : Float}
    (straddles : Straddles e.program.curve left right) :
    e.evaluate (some left) = .ok (e.program.curve left) ∧
      e.evaluate (some right) = .ok (e.program.curve right) :=
  -- Both values lie on a side of zero, so that neither is undefined.
  ⟨evaluate_of_curve (straddles.imp And.left And.left),
    evaluate_of_curve (straddles.symm.imp And.right And.right)⟩

/-- An expression with values of opposite signs depends on the variable. -/
theorem dependsOnX_of_straddles {settings : Settings} {options : ReadingOptions} {text : String}
    {e : Expression} (read : Expression.ofText settings options text = .ok e) {left right : Float}
    (straddles : Straddles e.program.curve left right) : e.dependsOnX = true := by
  -- Otherwise both values are the same.
  by_contra independent
  obtain ⟨atLeft, atRight⟩ := evaluate_of_straddles straddles
  rw [e.evaluate_of_not_dependsOnX read (by simpa using independent) (some left) (some right),
    atRight, Except.ok.injEq] at atLeft
  rcases straddles with ⟨below, above⟩ | ⟨above, below⟩
  · exact not_lt_zero_of_zero_lt (atLeft ▸ above) below
  · exact not_lt_zero_of_zero_lt above (atLeft ▸ below)

/--
A search by false position or by bisection keeps a change of sign, unless a product vanishes.

On an interval over which an expression changes its sign, a search is refused exactly if the product
of the values at both ends is rounded to zero. Otherwise it goes through brackets that have values
of opposite signs at their ends, exactly as long as the value at each estimate is a number other
than zero, and its product with the value at the left end is not rounded to zero where it is
negative.
-/
theorem find_bracketing {reading settings : Settings} {readingOptions : ReadingOptions}
    {options : SearchOptions} {text : String} {e : Expression} {method : Method}
    {rule : Shrinking e.program.curve} {a b : Number} {left right : Float}
    (read : Expression.ofText reading readingOptions text = .ok e)
    (chosen : settings.methodFor options = .ok method)
    (shrinks : Shrinking.ofMethod? e.program.curve method = some rule)
    (atLeft : a.toFloat = .ok left) (atRight : b.toFloat = .ok right)
    (straddles : Straddles e.program.curve left right) :
    ((∃ fault, find settings options e a b = .error (.search fault)) ↔
      Vanishes (e.program.curve left) (e.program.curve right)) ∧
    ∀ tolerance limit : Number,
      let brackets := rule.heads tolerance (Bracket.stepsBelow limit) (.start left right)
      (∃ last ∈ brackets.getLast?, estimate method e.program.curve tolerance limit left right =
        .ok ⟨last.estimate, brackets.length - 1⟩) ∧
      ((∀ head ∈ brackets, Straddles e.program.curve head.left head.right) ↔
        brackets.IsChain fun previous next =>
          Decisive e.program.curve previous.left (rule.probe previous next)) := by
  refine ⟨?_, fun tolerance limit => ⟨?_, ?_⟩⟩
  · -- The interval is checked with the product of the values at its ends.
    obtain ⟨valueLeft, valueRight⟩ := evaluate_of_straddles straddles
    have depends := dependsOnX_of_straddles read straddles
    simp only [find_refused_iff chosen atLeft atRight,
      checkInterval_eq depends valueLeft valueRight, mul_lt_zero_iff]
    have opposite := straddles
    unfold Straddles at opposite
    by_cases vanishes : Vanishes (e.program.curve left) (e.program.curve right)
    · simp [vanishes]
    · simp [vanishes, opposite]
  · exact Shrinking.estimate_eq_heads shrinks tolerance limit left right
  · -- From here on it is about the rule alone, whatever the expression is.
    exact Shrinking.straddles_heads _ straddles

/-- The variable by itself. -/
def letter : Expression where
  source := "x"
  tokens := [⟨"x", .literal⟩]
  postfixTokens := [⟨"x", .literal⟩]

/-- Between minus one and two, the variable is bracketed from the first estimate to the third. -/
theorem find_bracketing_letter :
    Expression.ofText {} {} "x" = .ok letter ∧ Straddles letter.program.curve (-1) 2 ∧
      (¬∃ fault, find {} { method := some "bisection" } letter (.real (-1)) (.real 2) =
        .error (.search fault)) ∧
      ∃ brackets : List Bracket, brackets.length = 3 ∧
        (∃ last ∈ brackets.getLast?,
          estimate .bisection letter.program.curve (.real 0.2) (.whole 2) (-1) 2 =
            .ok ⟨last.estimate, 2⟩) ∧
        ∀ head ∈ brackets, Straddles letter.program.curve head.left head.right := by
  have read : Expression.ofText {} {} "x" = .ok letter := rfl
  have chosen : ({} : Settings).methodFor { method := some "bisection" } = .ok .bisection := rfl
  have atLeft : (Number.real (-1)).toFloat = .ok (-1) := rfl
  have atRight : (Number.real 2).toFloat = .ok 2 := rfl
  have straddles : Straddles letter.program.curve (-1) 2 := .inl (by decide)
  obtain ⟨refused, searched⟩ := find_bracketing read chosen rfl atLeft atRight straddles
  obtain ⟨⟨last, final, ended⟩, bracketed⟩ := searched (.real 0.2) (.whole 2)
  -- The two middles on the way are not zero, and no product of values is small.
  have three : ((Shrinking.bisection letter.program.curve).heads (.real 0.2)
      (Bracket.stepsBelow (.whole 2)) (.start (-1) 2)).length = 3 := by decide +kernel
  rw [three] at ended
  refine ⟨read, straddles, ?_, _, three, ⟨last, final, ended⟩, bracketed.mpr (by decide +kernel)⟩
  rw [refused]
  decide

/--
Over an interval of the smallest doubles, a change of sign is not seen.

The product of the values is rounded to zero, both where a search is refused and where bisection
keeps the half that does not contain the root.
-/
theorem letter_unseen :
    (Straddles letter.program.curve (-1e-200) 1e-200 ∧
      find {} {} letter (.real (-1e-200)) (.real 1e-200) = .error (.search .noSignChange)) ∧
    (Straddles letter.program.curve (-1e-162) 3e-162 ∧
      (∀ fault, find {} {} letter (.real (-1e-162)) (.real 3e-162) ≠ .error (.search fault)) ∧
        ∃ head ∈ (Shrinking.bisection letter.program.curve).heads (.real 0) 1
            (.start (-1e-162) 3e-162),
          ¬Straddles letter.program.curve head.left head.right) := by
  -- The product of the ends is at most half of the least double in the first interval only.
  have chosen : ({} : Settings).methodFor {} = .ok .regulaFalsi := rfl
  refine ⟨⟨by decide +kernel, ?_⟩, by decide +kernel, unrefused_find rfl rfl ?_, by decide +kernel⟩
  · rw [find_refused_iff chosen rfl rfl, checkInterval_eq rfl rfl rfl, if_neg (by decide +kernel)]
  · rw [checkInterval_eq rfl rfl rfl, if_pos (by decide +kernel)]

end Root

end Formula
