import Formula.Proofs.Decimal.Stability
import Formula.Proofs.Root.Bracketing
import Formula.Proofs.Root.Union

/-! Every root that is reported is stable: rounding it to its decimal places does not change it. -/

namespace Formula

/-- What rounding to places comes to is what it comes to again. -/
theorem roundToPlaces_stable {places : Int} {x rounded : Float}
    (found : roundToPlaces places x = .ok rounded) :
    roundToPlaces places rounded = .ok rounded := by
  -- The rounded double is within the range of doubles, where rounding again changes nothing.
  unfold roundToPlaces at found
  dsimp only at found
  split_ifs at found
  cases found
  unfold roundToPlaces
  simp [Decimal.round_round]

/-- Rounding to places after the point keeps a finite double finite. -/
theorem isFinite_roundToPlaces {places : Int} {x rounded : Float} (finite : x.isFinite = true)
    (found : roundToPlaces places x = .ok rounded) : rounded.isFinite = true := by
  -- A finite double that would be rounded to an infinite one is an error.
  unfold roundToPlaces at found
  dsimp only at found
  split_ifs at found with beyond
  cases found
  simpa [finite] using beyond

variable {settings : Settings} {options : SearchOptions} {e : Expression} {a b : Number}

/-- The root of a finished search is its estimate, rounded. -/
theorem Root.root_of_find {run : SearchRun} (ran : find settings options e a b = .ok run) :
    run.root = (settings.decimalsFor options).round run.estimate.point := by
  -- The run keeps the decimal places that it was asked for.
  obtain ⟨_, _, _, _, _, _, -, -, -, -, -, -, -, rfl⟩ := steps_of_find ran
  rfl

/-- Every root that a search for all roots reports has been rounded. -/
theorem Sweep.exists_round_eq {points : Option Int} {roots : List Float}
    (reported : (find settings options e a b points).roots = .ok roots) :
    ∀ root ∈ roots, ∃ x, (settings.decimalsFor options).round x = .ok root := by
  -- The list of roots is what is left of the rounded ones, put in order.
  obtain ⟨-, xs, ys, zeros, found, -, -, rounded, within, rfl⟩ := roots_eq_ok_iff.mp reported
  intro root listed
  have collected := Root.Collects.nil.foldl (zeros ++ found)
  have kept : root ∈ zeros ++ found :=
    collected.sound root ((Root.perm_ascending _).mem_iff.mp listed)
  -- It is a point of the grid that was rounded, or the root of one search.
  rcases List.mem_append.mp kept with zero | inside
  · obtain ⟨sample, -, ran⟩ := exists_of_mem_right rounded root zero
    exact ⟨sample.1, ran⟩
  · obtain ⟨bracket, -, ran⟩ := exists_of_mem_right within root inside
    obtain ⟨run, searched, ran⟩ := exists_of_bind_eq_ok ran
    exact ⟨run.estimate.point, (Root.root_of_find searched).symm.trans ran⟩

/--
Reported roots are not changed by rounding them again.

Rounding to places after the point always comes to a number, which is finite if it was finite
before, and which rounding to as many places leaves as it is. So it is with the root that a search
reports, and with every root that a search for all roots reports, in any interval and on any grid.
-/
theorem Root.reported_stable {places : Int} (nonneg : 0 ≤ places)
    (asked : (settings.decimalsFor options).whole? = some places) :
    (∀ m : Float, ∃ r, roundToPlaces places m = .ok r ∧ roundToPlaces places r = .ok r ∧
      (m.isFinite = true → r.isFinite = true)) ∧
    (∀ (e : Expression) (a b : Number) (run : SearchRun), find settings options e a b = .ok run →
      ∃ r, run.root = .ok r ∧ roundToPlaces places run.estimate.point = .ok r ∧
        roundToPlaces places r = .ok r) ∧
    ∀ (e : Expression) (a b : Number) (points : Option Int) (roots : List Float),
      (Sweep.find settings options e a b points).roots = .ok roots →
        ∀ r ∈ roots, roundToPlaces places r = .ok r := by
  refine ⟨fun m => ?_, fun e a b run ran => ?_, fun e a b points roots reported r listed => ?_⟩
  · obtain ⟨r, rounded⟩ := exists_roundToPlaces nonneg m
    exact ⟨r, rounded, roundToPlaces_stable rounded,
      fun finite => isFinite_roundToPlaces finite rounded⟩
  · -- The root of a run is its rounded estimate.
    obtain ⟨r, rounded⟩ := exists_roundToPlaces nonneg run.estimate.point
    refine ⟨r, ?_, rounded, roundToPlaces_stable rounded⟩
    rw [root_of_find ran]
    exact (Setting.round_eq_ok_iff asked).mpr rounded
  · -- Each root of a list is some rounded double.
    obtain ⟨x, rounded⟩ := Sweep.exists_round_eq reported r listed
    exact roundToPlaces_stable ((Setting.round_eq_ok_iff asked).mp rounded)

/-- A quarter and a root of the variable are rounded to one place, and then rounded again. -/
theorem Root.reported_stable_letter :
    (0 : Int) ≤ 1 ∧ (({} : Settings).decimalsFor { decimals := some 1 }).whole? = some 1 ∧
      roundToPlaces 1 0.25 = .ok 0.2 ∧ roundToPlaces 1 0.2 = .ok 0.2 ∧
      ∃ run, find {} { decimals := some 1 } letter (.real (-1)) (.real 2) = .ok run ∧
        run.root = .ok 0 ∧ roundToPlaces 1 run.estimate.point = .ok 0 ∧
        (Sweep.find {} { decimals := some 1 } letter (.real (-1)) (.real 2) (some 2)).roots =
          .ok [0] ∧
        roundToPlaces 1 0 = .ok 0 := by
  -- A quarter is a tie, which goes to the even digit.
  have asked : (({} : Settings).decimalsFor { decimals := some 1 }).whole? = some 1 := rfl
  obtain ⟨always, single, all⟩ := reported_stable (by decide) asked
  have quarter : roundToPlaces 1 0.25 = .ok 0.2 := eq_ok_of_toOption (by decide +kernel)
  obtain ⟨r, rounded, stable, -⟩ := always 0.25
  obtain rfl := Except.ok.inj (quarter.symm.trans rounded)
  -- The one bracket of the grid has a root, which is the only one that is reported.
  have inside : Sweep.rootWithin {} { decimals := some 1 } letter (-1, 2) = .ok 0 :=
    eq_ok_of_toOption (by decide +kernel)
  obtain ⟨run, ran, reports⟩ := exists_of_bind_eq_ok inside
  obtain ⟨r, reportsToo, estimated, -⟩ := single letter _ _ run ran
  obtain rfl := Except.ok.inj (reports.symm.trans reportsToo)
  have values : letter.evaluateAll [-1, 2] = .ok [-1, 2] := eq_ok_of_toOption (by decide +kernel)
  have changes : Sampling.signChanges [-1, 2] [-1, 2] = [(-1, 2)] := rfl
  have reported :
      (Sweep.find {} { decimals := some 1 } letter (.real (-1)) (.real 2) (some 2)).roots =
        .ok [0] :=
    Sweep.roots_eq_ok_iff.mpr ⟨rfl, [-1, 2], [-1, 2], [], [0], rfl, values, .nil,
      changes ▸ .cons inside .nil, (List.mergeSort_singleton 0).symm⟩
  exact ⟨by decide, asked, quarter, stable, run, ran, reports, estimated, reported,
    all letter _ _ _ _ reported 0 (.head _)⟩

end Formula
