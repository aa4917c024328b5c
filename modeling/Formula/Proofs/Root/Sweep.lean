import Formula.Proofs.Number
import Formula.Proofs.Postfix.Pointwise
import Formula.Proofs.Root.Refusal

/-! A search for all roots never refuses to start on a bracket that its own grid has shown. -/

namespace Formula

namespace Sampling

/-- Where values change sign, the points on both sides have values whose product is negative. -/
theorem values_of_signChanges {sampled : Float → Float → Prop} {xs ys : List Float}
    (each : List.Forall₂ sampled xs ys) :
    ∀ bracket ∈ signChanges xs ys, ∃ before after, sampled bracket.1 before ∧
      sampled bracket.2 after ∧ before * after < 0 := by
  -- The cells of the grid are gone through from its start.
  induction each with
  | nil => exact nofun
  | @cons left before xs ys first rest ih =>
    intro bracket member
    cases rest with
    | nil => cases member
    | @cons right after xs ys second others =>
      rw [signChanges] at member
      -- The first cell is listed if its values change sign, and the rest follows.
      by_cases changes : changesSign before after = true
      · rcases List.mem_cons.mp (by simpa only [changes, if_true] using member) with rfl | later
        · simp only [changesSign, Bool.and_eq_true, decide_eq_true_eq] at changes
          exact ⟨before, after, first, second, changes.2⟩
        · exact ih bracket later
      · exact ih bracket (by simpa [changes] using member)

end Sampling

namespace Expression

/-- The exponents that mention the variable have plain values at a number. -/
def PlainExponentsAt (e : Expression) (x : Float) : Prop :=
  ∀ tree : TokenTree, tree.WellFormed true → tree.postorder = e.postfixTokens →
    tree.PlainExponents x

/-- On a row of numbers with plain exponents, an expression has its values at each of them. -/
theorem forall₂_of_evaluateAll {e : Expression} {xs ys : List Float}
    (evaluated : e.evaluateAll xs = .ok ys) (plain : ∀ x ∈ xs, e.PlainExponentsAt x) :
    List.Forall₂ (fun x y => e.evaluate (some x) = .ok y) xs ys := by
  -- The values are the cells of the one result on the whole row.
  cases ran : e.program.evaluateAll xs with
  | error fault => simp [evaluateAll, ran] at evaluated
  | ok values =>
    obtain rfl : values = ys := by simpa [evaluateAll, ran] using evaluated
    let row : Operand xs.length := .row ⟨xs.toArray, by simp⟩
    have cells (i : Nat) (within : i < xs.length) : row.cells[i] = xs[i] := rfl
    cases inner : e.program.evaluate (some row) with
    | error fault =>
      simp only [row] at inner
      simp [Program.evaluateAll, inner, Except.map] at ran
    | ok result =>
      obtain rfl : result.cells.toList = values := by
        simpa [Program.evaluateAll, row, inner, Except.map] using ran
      obtain ⟨tree, formed, order, valued⟩ := TokenTree.exists_of_evaluate inner
      refine List.forall₂_iff_get.mpr ⟨by simp, fun i within _ => ?_⟩
      have plainHere : tree.PlainExponents row.cells[i] :=
        plain xs[i] (List.getElem_mem within) tree formed order
      have ranAt := TokenTree.evaluate_postorder (formed.value?_cell within plainHere valued)
      rw [order, cells] at ranAt
      simpa using evaluate_eq_ok_iff.mpr ranAt

end Expression

/-- A bracket between plain points of a grid, at which values change sign, is accepted. -/
theorem Root.checkInterval_of_signChanges {e : Expression} (depends : e.dependsOnX = true)
    {xs ys : List Float} (evaluated : e.evaluateAll xs = .ok ys)
    (plain : ∀ x ∈ xs, e.PlainExponentsAt x) :
    ∀ bracket ∈ Sampling.signChanges xs ys, checkInterval e bracket.1 bracket.2 = .ok () := by
  -- The values on the grid are those that the check computes at both ends.
  intro bracket member
  obtain ⟨before, after, left, right, negative⟩ :=
    Sampling.values_of_signChanges (e.forall₂_of_evaluateAll evaluated plain) bracket member
  rw [checkInterval_eq depends left right, if_pos negative]

namespace Sweep

/-- The points at which a search for all roots looks for changes of sign. -/
def gridFor (settings : Settings) (a b : Number) (points : Option Int) :
    Except Failure (List Float) := do
  let count ← pointsFor settings points
  Sampling.grid settings (ends a b).1 (ends a b).2 (some (.whole count))

/-- What a grid shows of an expression: the zeros on it, and the brackets around changes of sign. -/
def survey (settings : Settings) (options : SearchOptions) (e : Expression) (a b : Number)
    (points : Option Int) : Except Failure (List Float × List (Float × Float)) := do
  let xs ← gridFor settings a b points
  let ys ← e.evaluateAll xs
  let zeros ← gridZeros (settings.decimalsFor options) xs ys
  return (zeros, Sampling.signChanges xs ys)

variable {settings : Settings} {options : SearchOptions} {e : Expression} {a b : Number}
  {points : Option Int}

/-- A search for all roots goes through the brackets that its grid shows. -/
theorem roots_find (depends : e.dependsOnX = true) :
    (find settings options e a b points).roots =
      (survey settings options e a b points).bind fun shown =>
        (overBrackets settings options e (shown.1.foldl Root.insert []) shown.2).roots.map
          Root.ascending := by
  -- The grid is surveyed first, and everything else depends on what it shows.
  unfold find survey gridFor
  simp only [depends, Bool.not_true, Bool.false_eq_true, if_false, bind_assoc, ends]
  split <;> simp_all [Except.bind]

/-- Without the variable, a search for all roots is refused at once. -/
theorem roots_find_of_constant (constant : ¬e.dependsOnX = true) :
    (find settings options e a b points).roots = .error (.search .constant) := by
  -- The check of the variable comes before everything else.
  simp [find, constant, throw, throwThe, MonadExceptOf.throw, bind, Except.bind]

/-- Looking at a grid fails as its number of points, its points or the values on it do. -/
theorem avoids_survey {kind : Failure → Prop} (narrow : Narrow kind)
    (enough : kind (.argument .tooFewPoints) → ∀ count, pointsFor settings points = .ok count →
      2 ≤ count) : Avoids kind (survey settings options e a b points) := by
  -- The number of points can only fail to be converted to an integer.
  have counted : Avoids kind (pointsFor settings points) := by
    unfold pointsFor
    split
    · split_ifs
      · exact Setting.avoids_truncate narrow _
      · exact .ok _
    · exact Setting.avoids_truncate narrow _
  -- A grid is refused for too few points, which the hypothesis excludes.
  have gridded : Avoids kind (gridFor settings a b points) := by
    refine counted.bind fun count known => Sampling.avoids_grid narrow _ _ _ ?_
    intro blamed given same
    obtain rfl : .whole count = given := Except.ok.inj same
    rw [Bool.eq_false_iff, Ne, Number.isBelow_whole, not_lt]
    exact enough blamed count known
  -- Each zero is rounded for itself, and rounding has no other failures.
  have zeros (xs ys : List Float) :
      Avoids kind (gridZeros (settings.decimalsFor options) xs ys) := by
    unfold gridZeros
    refine .mapM (fun sample => ?_) _
    exact Setting.avoids_round narrow _ sample.1
  exact gridded.bind fun xs _ => (e.avoids_evaluateAll narrow xs).bind fun ys _ =>
    (zeros xs ys).bind fun found _ => .ok (found, Sampling.signChanges xs ys)

/-- The brackets that a grid shows are those around changes of sign of the values on it. -/
theorem brackets_of_survey {shown : List Float × List (Float × Float)}
    (surveyed : survey settings options e a b points = .ok shown) :
    ∃ xs ys, gridFor settings a b points = .ok xs ∧ e.evaluateAll xs = .ok ys ∧
      shown.2 = Sampling.signChanges xs ys := by
  -- A survey that succeeds has a grid, values on it and zeros among them.
  obtain ⟨xs, gridded, valued⟩ := exists_of_bind_eq_ok surveyed
  obtain ⟨ys, evaluated, found⟩ := exists_of_bind_eq_ok valued
  obtain ⟨zeros, -, shownAll⟩ := exists_of_bind_eq_ok found
  cases shownAll
  exact ⟨xs, ys, gridded, evaluated, rfl⟩

/-- Searches in a row of brackets fail as one of them does, or as the rounding of its root. -/
theorem avoids_overBrackets {kind : Failure → Prop} (narrow : Narrow kind)
    {brackets : List (Float × Float)} (each : ∀ bracket ∈ brackets,
      Avoids kind (Root.find settings options e (.real bracket.1) (.real bracket.2))) :
    ∀ roots, Avoids kind (overBrackets settings options e roots brackets).roots := by
  -- The searches are carried out one after the other.
  induction brackets with
  | nil => exact fun roots => .ok roots
  | cons bracket rest ih =>
    obtain ⟨left, right⟩ := bracket
    intro roots
    have start := each (left, right) (.head _)
    unfold overBrackets
    cases found : Root.find settings options e (.real left) (.real right) with
    | error failure => exact .error (start failure found)
    | ok run =>
      -- A search that has ended still has to be rounded.
      have rounding : Avoids kind run.root := Setting.avoids_round narrow _ _
      cases rounded : run.root with
      | error failure =>
        simp only [rounded]
        exact .error (rounding failure rounded)
      | ok root =>
        simp only [rounded]
        exact ih (fun bracket member => each bracket (.tail _ member)) _

/-- A search for all roots fails as what it is made of does. -/
theorem avoids_find {kind : Failure → Prop} (narrow : Narrow kind)
    (constant : kind (.search .constant) → e.dependsOnX = true)
    (enough : kind (.argument .tooFewPoints) → ∀ count, pointsFor settings points = .ok count →
      2 ≤ count)
    (searches : ∀ shown, survey settings options e a b points = .ok shown →
      ∀ bracket ∈ shown.2,
        Avoids kind (Root.find settings options e (.real bracket.1) (.real bracket.2))) :
    Avoids kind (find settings options e a b points).roots := by
  -- Without the variable, the search is refused, which the hypothesis excludes.
  by_cases depends : e.dependsOnX = true
  · rw [roots_find depends]
    refine (avoids_survey narrow enough).bind fun shown surveyed => ?_
    exact (avoids_overBrackets narrow (searches shown surveyed) _).map _
  · rw [roots_find_of_constant depends]
    exact .error fun blamed => depends (constant blamed)

/--
A search for all roots starts on every bracket that its grid shows.

The grid is evaluated as a whole, and the ends of a bracket are evaluated again one by one. Where
the exponents that mention the variable have plain values, both ways lead to the same values.
-/
theorem find_unrefused {settings : Settings} {options : SearchOptions} {e : Expression}
    {a b : Number} {points : Option Int} (depends : e.dependsOnX = true)
    (plain : ∀ xs, gridFor settings a b points = .ok xs → ∀ x ∈ xs, e.PlainExponentsAt x) :
    ∀ fault, (find settings options e a b points).roots ≠ .error (.search fault) := by
  -- Only the searches on its brackets could be refused.
  refine unrefused_iff.mpr (avoids_find narrow_isRefusal (fun _ => depends)
    (by simp [Failure.IsRefusal]) fun shown surveyed bracket member => unrefused_iff.mp ?_)
  -- The brackets are those of the grid, on whose points the exponents are plain.
  obtain ⟨xs, ys, gridded, evaluated, brackets⟩ := brackets_of_survey surveyed
  rw [brackets] at member
  exact Root.unrefused_find rfl rfl
    (Root.checkInterval_of_signChanges depends evaluated (plain xs gridded) bracket member)

/-- Two to the variable, less two. -/
def doubling : Expression where
  source := "2^x-2"
  tokens :=
    [⟨"2", .literal⟩, ⟨"^", .operator⟩, ⟨"x", .literal⟩, ⟨"-", .operator⟩, ⟨"2", .literal⟩]
  postfixTokens :=
    [⟨"2", .literal⟩, ⟨"x", .literal⟩, ⟨"^", .operator⟩, ⟨"2", .literal⟩, ⟨"-", .operator⟩]

/-- At zero and at three, the exponent is plain. -/
theorem find_unrefused_doubling :
    doubling.dependsOnX = true ∧ gridFor {} (.real 0) (.real 3) (some 2) = .ok [0, 3] ∧
      (∀ x ∈ [0, 3], doubling.PlainExponentsAt x) ∧
        ∀ fault, (find {} {} doubling (.real 0) (.real 3) (some 2)).roots ≠
          .error (.search fault) := by
  have depends : doubling.dependsOnX = true := rfl
  have gridded : gridFor {} (.real 0) (.real 3) (some 2) = .ok [0, 3] := rfl
  -- The only exponent is the variable itself.
  have letter : TokenTree.WellFormed true (.node ⟨"x", .literal⟩ []) := .letter rfl rfl rfl
  have two : TokenTree.WellFormed true (.node ⟨"2", .literal⟩ []) :=
    .numeral rfl (by decide) (by decide)
  have power : TokenTree.WellFormed true
      (.node ⟨"^", .operator⟩ [.node ⟨"2", .literal⟩ [], .node ⟨"x", .literal⟩ []]) :=
    .pair (.inl rfl) rfl two letter
  have plain : ∀ x ∈ [0, 3], doubling.PlainExponentsAt x := by
    intro x listed tree formed order exponent value inner _ valued
    have whole : TokenTree.WellFormed true (.node ⟨"-", .operator⟩
        [.node ⟨"^", .operator⟩ [.node ⟨"2", .literal⟩ [], .node ⟨"x", .literal⟩ []],
          .node ⟨"2", .literal⟩ []]) := .pair (.inl rfl) rfl power two
    rw [TokenTree.eq_of_postorder_eq formed whole order] at inner
    have minus : Operation.ofSymbol? "-" ≠ some (.binary .power) := by decide
    obtain ⟨-, rfl⟩ : _ ∧ TokenTree.node ⟨"x", .literal⟩ [] = exponent := by
      simpa [TokenTree.hasExponent_node, minus] using inner
    obtain rfl : x = value := Option.some.inj valued
    revert x
    decide
  exact ⟨depends, gridded, plain, find_unrefused depends fun xs same =>
    (Except.ok.inj (gridded.symm.trans same)) ▸ plain⟩

end Sweep

end Formula
