import Formula.Proofs.Failure

/-! A search for a root is refused for one reason only: its interval is not accepted. -/

namespace Formula

/-- An answer, or a failure for any reason but that a search for a root cannot start. -/
def Unrefused {α : Type} (answer : Except Failure α) : Prop :=
  ∀ fault, answer ≠ .error (.search fault)

/-- The failure of a search that cannot start. -/
def Failure.IsRefusal (failure : Failure) : Prop :=
  ∃ fault, failure = .search fault

/-- What is not refused avoids refusals. -/
theorem unrefused_iff {α : Type} {answer : Except Failure α} :
    Unrefused answer ↔ Avoids Failure.IsRefusal answer := by
  -- A refusal is a failure that is a fault of the search.
  constructor
  · rintro unrefused _ failed ⟨fault, rfl⟩
    exact unrefused fault failed
  · intro avoids fault refused
    exact avoids _ refused ⟨fault, rfl⟩

/-- Refusals come from searches alone. -/
theorem narrow_isRefusal : Narrow Failure.IsRefusal := by
  -- None of these failures is a fault of the search.
  constructor <;> simp [Failure.IsRefusal]

/-- A method that is not known is an argument at fault. -/
theorem Settings.avoids_methodFor (settings : Settings) (options : SearchOptions) :
    Avoids Failure.IsRefusal (settings.methodFor options) := by
  -- The name of the method is known, or it is an argument at fault.
  unfold methodFor
  dsimp only
  split
  · exact .ok _
  · exact .error (by simp [Failure.IsRefusal])

namespace Root

variable {settings : Settings} {options : SearchOptions} {e : Expression} {a b : Number}
  {left right : Float}

/-- A search that may start on an interval does start. -/
theorem unrefused_find (atLeft : a.toFloat = .ok left) (atRight : b.toFloat = .ok right)
    (accepted : checkInterval e left right = .ok ()) : Unrefused (find settings options e a b) := by
  -- The interval is checked after the method is chosen, and before the method runs.
  refine unrefused_iff.mpr (avoids_find narrow_isRefusal (settings.avoids_methodFor options)
    (by simp [Failure.IsRefusal]) (by simp [Failure.IsRefusal]) ?_)
  intro left' right' atLeft' atRight'
  obtain rfl := Except.ok.inj (atLeft.symm.trans atLeft')
  obtain rfl := Except.ok.inj (atRight.symm.trans atRight')
  exact accepted ▸ .ok ()

/-- A search with a known method is refused exactly if its interval is. -/
theorem find_refused_iff {method : Method} (chosen : settings.methodFor options = .ok method)
    (atLeft : a.toFloat = .ok left) (atRight : b.toFloat = .ok right) (fault : SearchFault) :
    find settings options e a b = .error (.search fault) ↔
      checkInterval e left right = .error (.search fault) := by
  -- What comes before the check of the interval succeeds, and nothing after it is a refusal.
  cases checked : checkInterval e left right with
  | error failure =>
    simp [find, chosen, atLeft, atRight, checked, Except.mapError, bind, Except.bind]
  | ok accepted =>
    exact iff_of_false (unrefused_find atLeft atRight checked fault) nofun

/-- An interval is refused exactly if the product of the values at its ends is not negative. -/
theorem checkInterval_eq {v w : Float} (depends : e.dependsOnX = true)
    (valueLeft : e.evaluate (some left) = .ok v) (valueRight : e.evaluate (some right) = .ok w) :
    checkInterval e left right =
      if v * w < 0 then .ok () else .error (.search .noSignChange) := by
  -- The variable is there and both values are, so that only their product decides.
  simp only [checkInterval, depends, valueLeft, valueRight, bind, Except.bind, pure, Except.pure,
    throw, throwThe, MonadExceptOf.throw]
  by_cases negative : v * w < 0 <;> simp [negative]

/-- A search on an accepted interval ends with the estimate of its method. -/
theorem find_of_accepted {method : Method} {limit tolerance : Number} {found : Estimate}
    (chosen : settings.methodFor options = .ok method)
    (limited : settings.maxIterationsFor options = .ok limit)
    (bounded : settings.toleranceFor options = .ok tolerance)
    (atLeft : a.toFloat = .ok left) (atRight : b.toFloat = .ok right)
    (accepted : checkInterval e left right = .ok ())
    (ended : estimate method e.program.curve tolerance limit left right = .ok found) :
    find settings options e a b = .ok ⟨method, found, (e.program.curve found.point).abs, tolerance,
      settings.decimalsFor options⟩ := by
  -- All steps before the search are known to succeed, and nothing fails after it.
  simp only [find, chosen, limited, bounded, atLeft, atRight, accepted, ended, Except.mapError,
    bind, Except.bind, pure, Except.pure]

/-- A finished search has gone through all of its steps. -/
theorem steps_of_find {run : SearchRun} (ran : find settings options e a b = .ok run) :
    ∃ method left right limit tolerance found,
      settings.methodFor options = .ok method ∧ a.toFloat = .ok left ∧ b.toFloat = .ok right ∧
      checkInterval e left right = .ok () ∧ settings.maxIterationsFor options = .ok limit ∧
      settings.toleranceFor options = .ok tolerance ∧
      estimate method e.program.curve tolerance limit left right = .ok found ∧
      run = ⟨method, found, (e.program.curve found.point).abs, tolerance,
        settings.decimalsFor options⟩ := by
  -- The steps are peeled off from the front, each with the result that it had.
  obtain ⟨method, chosen, ran⟩ := exists_of_bind_eq_ok ran
  obtain ⟨left, atLeft, ran⟩ := exists_of_bind_eq_ok ran
  obtain ⟨right, atRight, ran⟩ := exists_of_bind_eq_ok ran
  obtain ⟨_, accepted, ran⟩ := exists_of_bind_eq_ok ran
  obtain ⟨limit, limited, ran⟩ := exists_of_bind_eq_ok ran
  obtain ⟨tolerance, bounded, ran⟩ := exists_of_bind_eq_ok ran
  obtain ⟨found, ended, ⟨⟩⟩ := exists_of_bind_eq_ok ran
  exact ⟨method, left, right, limit, tolerance, found, chosen, eq_ok_of_mapError atLeft,
    eq_ok_of_mapError atRight, accepted, limited, bounded, ended, rfl⟩

end Root

end Formula
