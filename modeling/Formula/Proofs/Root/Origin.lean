import Formula.Proofs.Root.Bracketing
import Formula.Proofs.Root.Union

/-! Where the roots that a grid shows come from, and how the searches for them ended. -/

namespace Formula

open Double (Alike OnGrid Vanishes rank value)

/-- Why a search by false position or by bisection has stopped at its last bracket, unconverged. -/
inductive SearchRun.Stopped (f : Float → Float) (limit : Number) (last : Bracket)
    (run : SearchRun) : Prop where
  | exhausted (full : run.estimate.iterations = Bracket.stepsBelow limit)
  | undefinedValue (undefined : run.residual.isNaN = true)
  | undefinedTolerance (bound : Float) (given : run.tolerance = .real bound)
    (undefined : bound.isNaN = true)
  | level (method : run.method = .regulaFalsi) (equal : (f last.right == f last.left) = true)

/-- The end of a search between two points: at its last bracket it has converged, or stopped. -/
def SearchRun.Ended {f : Float → Float} (rule : Shrinking f) (tolerance limit : Number)
    (left right : Float) (run : SearchRun) : Prop :=
  let brackets := rule.heads tolerance (Bracket.stepsBelow limit) (.start left right)
  ∃ last ∈ brackets.getLast?, run.estimate = ⟨last.estimate, brackets.length - 1⟩ ∧
    (Number.isAtMost (.real (f last.estimate).abs) tolerance = true ∨ run.Stopped f limit last)

namespace Shrinking

variable {f : Float → Float} {rule : Shrinking f} {tolerance : Number}

/-- Steps are made until the limit, or until the estimate is not coarse, or none is possible. -/
theorem getLast?_heads (limit : Nat) : ∀ {bracket last : Bracket},
    (rule.heads tolerance limit bracket).getLast? = some last →
      (rule.heads tolerance limit bracket).length = limit + 1 ∨
        last.isCoarse f tolerance = false ∨ rule.advance last = none := by
  -- The induction is on the number of steps that are allowed.
  induction limit with
  | zero => exact fun _ => .inl rfl
  | succ limit ih =>
    intro bracket last final
    unfold heads at final ⊢
    split_ifs at final ⊢ with coarse
    · cases moved : rule.advance bracket with
      | none =>
        rw [moved] at final
        cases final
        exact .inr (.inr moved)
      | some next =>
        -- The last of the brackets is that of the ones after the first.
        rw [moved] at final
        dsimp only at final ⊢
        have later : (rule.heads tolerance limit next).getLast? = some last := by
          rw [List.getLast?_cons, Option.some.injEq] at final
          cases others : (rule.heads tolerance limit next).getLast? with
          | none =>
            have started := @head?_heads f rule tolerance limit next
            rw [List.getLast?_eq_none_iff.mp others] at started
            cases started
          | some other => rw [← final, others, Option.getD_some]
        exact (ih later).imp_left fun full => congrArg (· + 1) full
    · cases final
      exact .inr (.inl (by simpa using coarse))

/-- A method that shrinks brackets is only stuck over a level chord. -/
theorem level_of_advance {method : Method} (shrinks : ofMethod? f method = some rule)
    {last : Bracket} (stuck : rule.advance last = none) :
    method = .regulaFalsi ∧ (f last.right == f last.left) = true := by
  -- A middle can always be taken, and only the chord has a denominator.
  cases method with
  | regulaFalsi =>
    cases shrinks
    refine ⟨rfl, ?_⟩
    change Bracket.falsePosition f last = none at stuck
    unfold Bracket.falsePosition at stuck
    dsimp only at stuck
    split_ifs at stuck with equal
    exact equal
  | bisection =>
    cases shrinks
    cases stuck
  | brent => cases shrinks

end Shrinking

namespace Root

variable {settings : Settings} {options : SearchOptions} {e : Expression} {method : Method}
  {rule : Shrinking e.program.curve} {limit tolerance : Number}

/-- A search between two doubles has converged or stopped, and its root is its estimate, rounded. -/
theorem ended_of_find {left right : Float} {run : SearchRun}
    (chosen : settings.methodFor options = .ok method)
    (shrinks : Shrinking.ofMethod? e.program.curve method = some rule)
    (limited : settings.maxIterationsFor options = .ok limit)
    (bounded : settings.toleranceFor options = .ok tolerance)
    (found : find settings options e (.real left) (.real right) = .ok run) :
    run.root = (settings.decimalsFor options).round run.estimate.point ∧
      run.Ended rule tolerance limit left right := by
  -- The search itself is one of the steps.
  obtain ⟨_, _, _, _, _, estimated, chosenToo, atLeft, atRight, -, limitedToo, boundedToo, ran,
    rfl⟩ := steps_of_find found
  obtain rfl := Except.ok.inj (chosen.symm.trans chosenToo)
  obtain rfl := Except.ok.inj (limited.symm.trans limitedToo)
  obtain rfl := Except.ok.inj (bounded.symm.trans boundedToo)
  obtain rfl := Except.ok.inj atLeft
  obtain rfl := Except.ok.inj atRight
  refine ⟨rfl, ?_⟩
  obtain ⟨last, final, ended⟩ := Shrinking.estimate_eq_heads shrinks tolerance limit left right
  obtain rfl := Except.ok.inj (ran.symm.trans ended)
  refine ⟨last, final, rfl, ?_⟩
  -- The last bracket tells why no further step was made.
  rcases Shrinking.getLast?_heads (Bracket.stepsBelow limit) final with full | fine | stuck
  · exact .inr (.exhausted (by rw [full, Nat.add_sub_cancel]))
  · rcases Number.isAtMost_or_undefined fine with within | undefined | ⟨bound, given, undefined⟩
    · exact .inl within
    · exact .inr (.undefinedValue undefined)
    · exact .inr (.undefinedTolerance bound given undefined)
  · obtain ⟨method, equal⟩ := Shrinking.level_of_advance shrinks stuck
    exact .inr (.level method equal)

end Root

namespace Sweep

variable {settings : Settings} {options : SearchOptions} {e : Expression} {a b : Number}
  {points : Option Int}

/-- Searches in a row of brackets that all come to roots are all recorded. -/
theorem runs_overBrackets (brackets : List (Float × Float)) : ∀ {roots all : List Float},
    (overBrackets settings options e roots brackets).roots = .ok all →
      List.Forall₂ (fun bracket run => Root.find settings options e (.real bracket.1)
          (.real bracket.2) = .ok run ∧ ∃ root, run.root = .ok root) brackets
        (overBrackets settings options e roots brackets).runs := by
  -- The induction is on the brackets; the first search that comes to no root ends the row.
  induction brackets with
  | nil => exact fun _ => .nil
  | cons bracket rest ih =>
    obtain ⟨left, right⟩ := bracket
    intro roots all reported
    unfold overBrackets at reported ⊢
    cases found : Root.find settings options e (.real left) (.real right) with
    | error failure =>
      rw [found] at reported
      cases reported
    | ok run =>
      rw [found] at reported
      cases rounded : run.root with
      | error failure =>
        simp only [rounded] at reported
        cases reported
      | ok root =>
        simp only [rounded] at reported ⊢
        exact .cons ⟨found, root, rounded⟩ (ih reported)

/-- A search for all roots makes the searches in the brackets that its grid shows. -/
theorem runs_find {shown : List Float × List (Float × Float)} (depends : e.dependsOnX = true)
    (surveyed : survey settings options e a b points = .ok shown) :
    (find settings options e a b points).runs =
      (overBrackets settings options e (shown.1.foldl Root.insert []) shown.2).runs := by
  unfold survey gridFor at surveyed
  unfold find
  simp only [bind_assoc] at surveyed
  simp only [depends, Bool.not_true, Bool.false_eq_true, if_false, surveyed]

/-- The searches that are recorded are those in the brackets, if all of them come to roots. -/
theorem runs_of_roots {roots : List Float}
    (reported : (find settings options e a b points).roots = .ok roots) :
    ∃ xs ys, gridFor settings a b points = .ok xs ∧ e.evaluateAll xs = .ok ys ∧
      List.Forall₂ (fun bracket run => Root.find settings options e (.real bracket.1)
          (.real bracket.2) = .ok run ∧ ∃ root, run.root = .ok root)
        (Sampling.signChanges xs ys) (find settings options e a b points).runs := by
  obtain ⟨depends, -⟩ := roots_eq_ok_iff.mp reported
  rw [roots_find depends] at reported
  obtain ⟨shown, surveyed, collected⟩ := exists_of_bind_eq_ok reported
  obtain ⟨xs, ys, gridded, evaluated, brackets⟩ := brackets_of_survey surveyed
  refine ⟨xs, ys, gridded, evaluated, ?_⟩
  rw [runs_find depends surveyed, ← brackets]
  generalize shown.1.foldl Root.insert [] = zeros at collected ⊢
  cases searched : (overBrackets settings options e zeros shown.2).roots with
  | error failure =>
    rw [searched] at collected
    cases collected
  | ok all => exact runs_overBrackets shown.2 searched

/--
Every root that a search for all roots reports is a zero on its grid, or the end of a search.

There is one search for each cell of the grid over which two finite values cross zero, unless their
product is rounded to zero. Each search contributes the estimate that it ends with, rounded, whether
it has converged, so that the value at the estimate is within the tolerance, or was stopped by the
limit, by an undefined value or by a level chord. A cell around a pole is searched like any other.
-/
theorem find_origin {method : Method} {rule : Shrinking e.program.curve} {limit tolerance : Number}
    {roots : List Float} (chosen : settings.methodFor options = .ok method)
    (shrinks : Shrinking.ofMethod? e.program.curve method = some rule)
    (limited : settings.maxIterationsFor options = .ok limit)
    (bounded : settings.toleranceFor options = .ok tolerance)
    (reported : (find settings options e a b points).roots = .ok roots) :
    ∃ xs ys, gridFor settings a b points = .ok xs ∧ e.evaluateAll xs = .ok ys ∧
      Sampling.signChanges xs ys = Sampling.cellsWhere
        (fun before after => Sampling.Crosses before after ∧ ¬Vanishes before after) xs ys ∧
      let runs := (find settings options e a b points).runs
      List.Forall₂ (fun bracket run =>
          Root.find settings options e (.real bracket.1) (.real bracket.2) = .ok run ∧
            run.Ended rule tolerance limit bracket.1 bracket.2)
        (Sampling.signChanges xs ys) runs ∧
      (∀ root ∈ roots,
        (∃ sample ∈ xs.zip ys, (sample.2 == 0) = true ∧
          (settings.decimalsFor options).round sample.1 = .ok root) ∨
        ∃ run ∈ runs, (settings.decimalsFor options).round run.estimate.point = .ok root) ∧
      ∀ run ∈ runs, ∃ root ∈ roots, ∃ rounded,
        (settings.decimalsFor options).round run.estimate.point = .ok rounded ∧
          Alike root rounded := by
  obtain ⟨xs, ys, gridded, evaluated, each⟩ := runs_of_roots reported
  obtain ⟨-, xs', ys', zeros, found, griddedToo, evaluatedToo, rounded, within, rfl⟩ :=
    roots_eq_ok_iff.mp reported
  -- The runs and the roots are those of the same grid.
  obtain rfl := Except.ok.inj (gridded.symm.trans griddedToo)
  obtain rfl := Except.ok.inj (evaluated.symm.trans evaluatedToo)
  have collected : Root.Collects (zeros ++ found) ((zeros ++ found).foldl Root.insert []) :=
    Root.Collects.nil.foldl (zeros ++ found)
  have perm := Root.perm_ascending ((zeros ++ found).foldl Root.insert [])
  -- Each search reports the estimate that it ended with, and converged or was stopped.
  have ended {bracket : Float × Float} {run : SearchRun}
      (searched : Root.find settings options e (.real bracket.1) (.real bracket.2) = .ok run) :=
    Root.ended_of_find chosen shrinks limited bounded searched
  refine ⟨xs, ys, gridded, evaluated, Sampling.signChanges_eq xs ys,
    each.imp fun bracket run searched => ⟨searched.1, (ended searched.1).2⟩,
    fun root listed => ?_, fun run recorded => ?_⟩
  · rcases List.mem_append.mp (collected.sound root (perm.mem_iff.mp listed)) with zero | inside
    · obtain ⟨sample, member, ran⟩ := exists_of_mem_right rounded root zero
      obtain ⟨sampled, vanishes⟩ := List.mem_filter.mp member
      exact .inl ⟨sample, sampled, vanishes, ran⟩
    · -- The bracket in which the root was found has its search among those that are recorded.
      obtain ⟨bracket, shown, ran⟩ := exists_of_mem_right within root inside
      obtain ⟨run, recorded, searched, -⟩ := exists_of_mem_left each bracket shown
      rw [rootWithin, searched] at ran
      exact .inr ⟨run, recorded, (ended searched).1.symm.trans ran⟩
  · -- The root of a recorded search is kept, or an equal one stands for it.
    obtain ⟨bracket, shown, searched, -⟩ := exists_of_mem_right each run recorded
    obtain ⟨root, inside, ran⟩ := exists_of_mem_left within bracket shown
    obtain ⟨kept, member, alike⟩ := collected.complete root (List.mem_append_right _ inside)
    rw [rootWithin, searched] at ran
    exact ⟨kept, perm.mem_iff.mpr member, root, (ended searched).1.symm.trans ran, alike⟩

/-- Between minus one and two the variable has one root, with which the only search ends. -/
theorem find_origin_letter :
    (find {} {} Root.letter (.real (-1)) (.real 2) (some 2)).roots = .ok [0] ∧
      ∃ run, (find {} {} Root.letter (.real (-1)) (.real 2) (some 2)).runs = [run] ∧
        run.Ended (.falsePosition Root.letter.program.curve) (.real 1e-10) (.whole 100) (-1) 2 ∧
          roundToPlaces 10 run.estimate.point = .ok 0 := by
  -- The hypotheses are about the settings and the one cell of the grid.
  have chosen : ({} : Settings).methodFor {} = .ok .regulaFalsi := rfl
  have limited : ({} : Settings).maxIterationsFor {} = .ok (.whole 100) := rfl
  have bounded : ({} : Settings).toleranceFor {} = .ok (.real 1e-10) := rfl
  have grid : gridFor {} (.real (-1)) (.real 2) (some 2) = .ok [-1, 2] := rfl
  have values : Root.letter.evaluateAll [-1, 2] = .ok [-1, 2] :=
    eq_ok_of_toOption (by decide +kernel)
  have changes : Sampling.signChanges [-1, 2] [-1, 2] = [(-1, 2)] := rfl
  have inside : rootWithin {} {} Root.letter (-1, 2) = .ok 0 :=
    eq_ok_of_toOption (by decide +kernel)
  have reported : (find {} {} Root.letter (.real (-1)) (.real 2) (some 2)).roots = .ok [0] :=
    roots_eq_ok_iff.mpr ⟨rfl, _, _, [], [0], grid, values, .nil, changes ▸ .cons inside .nil,
      (List.mergeSort_singleton 0).symm⟩
  obtain ⟨xs, ys, gridded, evaluated, -, each, origin, -⟩ :=
    find_origin chosen rfl limited bounded reported
  obtain rfl := Except.ok.inj (grid.symm.trans gridded)
  obtain rfl := Except.ok.inj (values.symm.trans evaluated)
  -- One cell is searched, so that one search is recorded.
  rw [changes] at each
  obtain ⟨run, others, ⟨-, ended⟩, none, alone⟩ := List.forall₂_cons_left_iff.mp each
  rw [List.forall₂_nil_left_iff.mp none] at alone
  refine ⟨reported, run, alone, ended, ?_⟩
  -- No sample is zero, so that the root is that of the only search.
  rcases origin 0 (.head _) with ⟨sample, sampled, zero, -⟩ | ⟨other, recorded, rounded⟩
  · have nonzero : ∀ sample ∈ [((-1 : Float), (-1 : Float)), (2, 2)], (sample.2 == 0) = false := by
      decide
    rw [nonzero sample sampled] at zero
    cases zero
  · rw [alone] at recorded
    obtain rfl := List.mem_singleton.mp recorded
    exact (Setting.round_eq_ok_iff rfl).mp rounded

/-- One over the variable: a curve with a pole at zero, and no root at all. -/
def reciprocal : Expression where
  source := "1/x"
  tokens := [⟨"1", .literal⟩, ⟨"/", .operator⟩, ⟨"x", .literal⟩]
  postfixTokens := [⟨"1", .literal⟩, ⟨"x", .literal⟩, ⟨"/", .operator⟩]

/-- What is rounded to zero is small, if no digits before the point are dropped. -/
theorem abs_value_le_of_rounded {places : Int} {m : Float} (nonneg : 0 ≤ places)
    (rounded : roundToPlaces places m = .ok 0) : m.isFinite = true ∧ |value m| ≤ 1 := by
  unfold roundToPlaces at rounded
  dsimp only at rounded
  split_ifs at rounded
  have zero : Decimal.round places m = 0 := Except.ok.inj rounded
  -- Infinite and undefined numbers are left as they are.
  have finite : m.isFinite = true := by
    by_contra infinite
    rw [Decimal.round, if_neg infinite] at zero
    rw [zero] at infinite
    exact infinite rfl
  refine ⟨finite, ?_⟩
  -- The decimal number that is nearest to it is at most a half, and at most a half away.
  have nearest := (Decimal.rounds_round places finite).nearest (by rw [zero]; rfl)
  have nothing : value 0 = 0 := rfl
  rw [zero, nothing] at nearest
  have half := (le_abs_self _).trans ((Double.abs_signed _ _).symm.trans_le nearest.abs_le_half)
  have close := Decimal.abs_worth_toPlaces_sub_le places (Decimal.magnitude m)
  have unit : (10 : ℚ) ^ (-places) ≤ 1 := zpow_le_one_of_nonpos₀ (by norm_num) (by omega)
  rw [Decimal.worth_magnitude_eq finite] at close
  linarith [(abs_le.mp close).1]

/-- One over a number that is at most one is at least a half, and beyond all numbers for a zero. -/
theorem half_le_rank_reciprocal {m : Float} (finite : m.isFinite = true) (small : |value m| ≤ 1)
    (defined : (1 / m).isNaN = false) : 1 / 2 ≤ |rank (1 / m)| := by
  rcases Double.parts_kinds (1 / m) with undefined | ⟨sign, infinite⟩ | proper
  · rw [Double.isNaN_iff.mpr undefined] at defined
    cases defined
  · -- An infinite quotient is beyond all numbers.
    have far : |rank (1 / m)| = Double.ceiling := by
      rw [rank, infinite]
      exact (Double.abs_signed _ _).trans (abs_of_pos Double.ceiling_pos)
    have large : (1 : ℚ) ≤ Double.ceiling := one_le_zpow₀ one_le_two (by decide)
    linarith
  · have bounded : (1 / m).isFinite = true := by
      change (Double.parts (1 / m)).isFinite = true
      generalize Double.parts (1 / m) = u at proper
      cases proper <;> rfl
    -- One over a zero would not be finite.
    have nonzero : value m ≠ 0 := by
      intro nothing
      rcases Double.zero_of_value finite nothing with rfl | rfl
      · exact absurd bounded (by decide)
      · exact absurd bounded (by decide)
    have one : (1 : Float).isFinite = true ∧ value 1 = 1 := by decide +kernel
    have nearest := (Double.rounds_div one.1 finite nonzero).nearest bounded
    -- The exact quotient is at least one, and rounding does not take it below a half.
    have large : 1 / 2 ≤ |value 1 / value m| := by
      rw [one.2, abs_div, abs_one, le_div_iff₀ (abs_pos.mpr nonzero)]
      linarith
    have onGrid : OnGrid (1 / 2) := by
      rw [one_div, ← zpow_neg_one]
      exact .two_zpow (by decide)
    rw [rank, proper.rank_eq]
    exact nearest.le_magnitude onGrid large

/-- Zero is reported as a root of the reciprocal, though nothing near it has a small value. -/
theorem reciprocal_pole :
    let options : SearchOptions := { method := some "bisection" }
    Expression.ofText {} {} "1/x" = .ok reciprocal ∧
      (find {} options reciprocal (.real (-1)) (.real 2) (some 2)).roots = .ok [0] ∧
      ∀ m, roundToPlaces 10 m = .ok 0 →
        Number.isAtMost (.real (reciprocal.program.curve m).abs) (.real 1e-10) = false := by
  intro options
  -- The only search ends beside the pole, and its estimate is rounded to zero.
  have inside : rootWithin {} options reciprocal (-1, 2) = .ok 0 :=
    eq_ok_of_toOption (by decide +kernel)
  have values : reciprocal.evaluateAll [-1, 2] = .ok [-1, 0.5] :=
    eq_ok_of_toOption (by decide +kernel)
  have changes : Sampling.signChanges [-1, 2] [-1, 0.5] = [(-1, 2)] := rfl
  refine ⟨rfl, roots_eq_ok_iff.mpr ⟨rfl, [-1, 2], [-1, 0.5], [], [0], rfl, values, .nil,
    changes ▸ .cons inside .nil, (List.mergeSort_singleton 0).symm⟩, fun m rounded => ?_⟩
  -- The value is at least a half wherever the estimate is close enough to be rounded to zero.
  have curve : reciprocal.program.curve m = 1 / m := rfl
  rw [curve, Bool.eq_false_iff]
  intro within
  obtain ⟨defined, below⟩ := Number.rank_le_of_isAtMost within
  obtain ⟨finite, small⟩ := abs_value_le_of_rounded (by decide) rounded
  have above := half_le_rank_reciprocal finite small (Double.isNaN_of_abs defined)
  have fine : rank 1e-10 < 1 / 2 := by decide +kernel
  rw [Double.rank_abs] at below
  linarith

end Sweep

end Formula
