import Formula.Proofs.Number
import Formula.Proofs.Root.Bracketing
import Formula.Proofs.Root.Sweep

/-! Settings that have been validated cause no failure of an operation that falls back on them. -/

namespace Formula

/-- A failure that blames the value of a setting: an unknown name, or a number out of its range. -/
inductive Failure.BlamesSetting : Failure → Prop where
  | policy (given : String) : BlamesSetting (.argument (.unknownPolicy given))
  | method (given : String) : BlamesSetting (.argument (.unknownMethod given))
  | points : BlamesSetting (.argument .tooFewPoints)
  | tolerance (bound : Float) : BlamesSetting (.argument (.narrowTolerance bound))
  | limit : BlamesSetting (.argument .negativeLimit)

/-- A failure that says of no setting that it is out of its range. -/
def Failure.IsForeign (failure : Failure) : Prop :=
  ∀ setting, failure ≠ .misconfigured setting

/-- No formula and no conversion blames a setting. -/
theorem narrow_blamesSetting : Narrow Failure.BlamesSetting where
  -- None of these failures is among those that name a setting.
  formula _ := nofun
  number _ := nofun
  limit _ := nofun
  unusable := nofun
  notWhole _ := nofun
  undefined _ := nofun

namespace Settings

/-- The settings that are to be numbers are, and all but the tolerance are whole. -/
structure Numeric (settings : Settings) : Prop where
  maxIterations : settings.maxIterations.whole?.isSome = true
  tolerance : settings.tolerance.number?.isSome = true
  decimals : settings.decimals.whole?.isSome = true
  numPoints : settings.numPoints.whole?.isSome = true

/-- What an operation can fail with that is asked for nothing in place of the settings. -/
inductive FailsWith (settings : Settings) (failure : Failure) : Prop where
  | tokens (text : String)
    (failed : Expression.tokenize settings {} text = .error failure)
  | order (tokens : List Token)
    (failed : Expression.order settings none tokens = .error failure)
  | expression (text : String)
    (failed : Expression.ofText settings {} text = .error failure)
  | value (e : Expression) (x : Option Float)
    (failed : e.evaluate x = .error failure)
  | quantity (e : Expression) (x : Option (Quantity Float))
    (failed : e.evaluateQuantity x = .error failure)
  | root (e : Expression) (a b : Number)
    (failed : (Root.find settings {} e a b).bind SearchRun.root = .error failure)
  | roots (e : Expression) (a b : Number)
    (failed : (Sweep.find settings {} e a b none).roots = .error failure)
  | grid (start stop : Number)
    (failed : Sampling.grid settings start stop none = .error failure)
  | table (e : Expression) (start stop : Number)
    (failed : ValueTable.ofExpression settings e start stop none = .error failure)

/-- All settings are in their ranges. -/
structure InRange (settings : Settings) : Prop where
  conflictPolicy : (settings.conflictPolicy.named? ConflictPolicy.ofName?).isSome = true
  maxIterations : ∃ limit, settings.maxIterations.number? = some limit ∧
    Number.isBelow (.whole 0) limit = true
  tolerance : ∃ tolerance, settings.tolerance.number? = some tolerance ∧
    Number.isBelow (.whole 0) tolerance = true
  decimals : ∃ places, settings.decimals.number? = some places ∧
    Number.isAtMost (.whole 0) places = true
  method : (settings.method.named? Method.ofName?).isSome = true
  numPoints : ∃ count, settings.numPoints.number? = some count ∧
    Number.isAtMost (.whole 2) count = true

section

variable {setting : Setting} {otherwise : Misconfiguration}

/-- A name passes its check if it is known. -/
theorem checkName_eq_ok_iff {α : Type} {ofName? : String → Option α} :
    checkName setting ofName? otherwise = .ok () ↔ (setting.named? ofName?).isSome = true := by
  -- The check asks for nothing but the name.
  unfold checkName
  split_ifs with known <;> simp [known]

/-- A number passes its check if it passes the test. -/
theorem checkNumber_eq_ok_iff {test : Number → Bool} :
    checkNumber setting test otherwise = .ok () ↔
      ∃ value, setting.number? = some value ∧ test value = true := by
  -- A setting that is no number fails before the test is made.
  unfold checkNumber
  cases setting.number? with
  | none => simp [Setting.required, bind, Except.bind]
  | some value => simp [Setting.required, bind, Except.bind]

end

variable {settings : Settings}

/-- Exactly the settings in their ranges pass all checks. -/
theorem validate_eq_ok_iff : settings.validate = .ok () ↔ settings.InRange := by
  -- The checks are made one after the other, and the first that fails ends the row.
  unfold validate
  constructor
  · intro passed
    obtain ⟨_, conflictPolicy, passed⟩ := exists_of_bind_eq_ok passed
    obtain ⟨_, maxIterations, passed⟩ := exists_of_bind_eq_ok passed
    obtain ⟨_, tolerance, passed⟩ := exists_of_bind_eq_ok passed
    obtain ⟨_, decimals, passed⟩ := exists_of_bind_eq_ok passed
    obtain ⟨_, method, numPoints⟩ := exists_of_bind_eq_ok passed
    exact ⟨checkName_eq_ok_iff.mp conflictPolicy, checkNumber_eq_ok_iff.mp maxIterations,
      checkNumber_eq_ok_iff.mp tolerance, checkNumber_eq_ok_iff.mp decimals,
      checkName_eq_ok_iff.mp method, checkNumber_eq_ok_iff.mp numPoints⟩
  · -- With all checks passed, the row comes to its end.
    rintro ⟨conflictPolicy, maxIterations, tolerance, decimals, method, numPoints⟩
    rw [checkName_eq_ok_iff.mpr conflictPolicy, checkNumber_eq_ok_iff.mpr maxIterations,
      checkNumber_eq_ok_iff.mpr tolerance, checkNumber_eq_ok_iff.mpr decimals,
      checkName_eq_ok_iff.mpr method, checkNumber_eq_ok_iff.mpr numPoints]
    rfl

/-- A check of a name passes or says what is out of its range. -/
theorem checkName_cases {α : Type} (setting : Setting) (ofName? : String → Option α)
    (otherwise : Misconfiguration) :
    Avoids Failure.IsForeign (checkName setting ofName? otherwise) := by
  -- The only failure of a check is the one that it is given.
  unfold checkName
  split_ifs
  · exact .ok ()
  · exact .error fun other => other otherwise rfl

/-- A check of a setting that is a number passes or says what is out of its range. -/
theorem checkNumber_cases {setting : Setting} (number : setting.number?.isSome = true)
    (test : Number → Bool) (otherwise : Misconfiguration) :
    Avoids Failure.IsForeign (checkNumber setting test otherwise) := by
  -- The setting is a number, so the failure for one that is none cannot occur.
  unfold checkNumber
  obtain ⟨value, known⟩ := Option.isSome_iff_exists.mp number
  rw [known]
  refine Avoids.bind (.ok value) fun value _ => ?_
  split_ifs
  · exact .ok ()
  · exact .error fun other => other otherwise rfl

/-- Settings that are numbers where they are to be pass all checks, or one is out of its range. -/
theorem Numeric.validate_cases (numeric : settings.Numeric) :
    settings.validate = .ok () ∨
      ∃ setting, settings.validate = .error (.misconfigured setting) := by
  have number {setting : Setting} (whole : setting.whole?.isSome = true) :
      setting.number?.isSome = true := Option.isSome_of_isSome_bind whole
  -- Each check passes, or it ends the row with its own failure.
  have avoids : Avoids Failure.IsForeign settings.validate := by
    refine (checkName_cases _ _ _).bind fun _ _ => ?_
    refine (checkNumber_cases (number numeric.maxIterations) _ _).bind fun _ _ => ?_
    refine (checkNumber_cases numeric.tolerance _ _).bind fun _ _ => ?_
    refine (checkNumber_cases (number numeric.decimals) _ _).bind fun _ _ => ?_
    refine (checkName_cases _ _ _).bind fun _ _ => ?_
    exact checkNumber_cases (number numeric.numPoints) _ _
  -- A failure of another kind is what all checks avoid.
  cases checked : settings.validate with
  | ok passed => exact .inl rfl
  | error failure =>
    obtain ⟨setting, rfl⟩ : ∃ setting, failure = .misconfigured setting := by
      by_contra foreign
      exact avoids failure checked fun setting same => foreign ⟨setting, same⟩
    exact .inr ⟨setting, rfl⟩

end Settings

/-- A whole number is truncated to itself. -/
theorem Setting.truncate_of_whole {setting : Setting} {n : Int} (whole : setting.whole? = some n) :
    setting.truncate = .ok n := by
  -- A flag counts as a whole number, as does a number without a fraction.
  cases setting with
  | absent | text => cases whole
  | flag holds =>
    cases whole
    rfl
  | number value =>
    cases value with
    | whole m =>
      cases whole
      rfl
    | real x => cases whole

namespace Settings

variable {settings : Settings}

namespace InRange

variable (inRange : settings.InRange)
include inRange

/-- The policy is known. -/
theorem exists_policy : ∃ policy, settings.policyFor {} = .ok policy := by
  -- Without a name that is given, the policy is the one of the settings.
  obtain ⟨policy, known⟩ := Option.isSome_iff_exists.mp inRange.conflictPolicy
  refine ⟨policy, ?_⟩
  unfold policyFor nameOr
  simp only [known]

/-- The method is known. -/
theorem exists_method : ∃ method, settings.methodFor {} = .ok method := by
  -- Without a name that is given, the method is the one of the settings.
  obtain ⟨method, known⟩ := Option.isSome_iff_exists.mp inRange.method
  refine ⟨method, ?_⟩
  unfold methodFor nameOr
  simp only [known]

/-- The tolerance of a search under settings in their ranges is above zero. -/
theorem isAtMost_toleranceFor {tolerance : Number}
    (given : settings.toleranceFor {} = .ok tolerance) :
    tolerance.isAtMost (.whole 0) = false := by
  -- The search has the tolerance of the settings, which is above zero.
  obtain ⟨value, known, above⟩ := inRange.tolerance
  obtain rfl := Option.some.inj (known.symm.trans (Setting.required_eq_ok_iff.mp given))
  exact Number.isAtMost_of_isBelow above

/-- The limit of a search under settings in their ranges is not negative. -/
theorem nonneg_maxIterationsFor {limit : Number}
    (given : settings.maxIterationsFor {} = .ok limit) {n : Int} (whole : limit.whole? = some n) :
    0 ≤ n := by
  -- The search has the limit of the settings; as a whole number it can be compared.
  obtain ⟨value, known, above⟩ := inRange.maxIterations
  obtain rfl := Option.some.inj (known.symm.trans (Setting.required_eq_ok_iff.mp given))
  cases value with
  | whole m =>
    obtain rfl := Option.some.inj whole
    exact (Number.isBelow_whole.mp above).le
  | real x => cases whole

/-- With settings in their ranges, grid and search agree on a number of at least two points. -/
theorem exists_numPoints (numeric : settings.Numeric) :
    ∃ n : Int, 2 ≤ n ∧ Sampling.pointCount settings none = .ok (.whole n) ∧
      Sweep.pointsFor settings none = .ok n := by
  -- The grid takes the number as it is, and the search takes its whole part.
  obtain ⟨n, whole⟩ := Option.isSome_iff_exists.mp numeric.numPoints
  obtain ⟨count, known, enough⟩ := inRange.numPoints
  -- The number in range and the whole one are the same setting.
  obtain rfl : count = .whole n := by
    rw [Setting.whole?, known, Option.bind_some] at whole
    cases count with
    | whole m => exact congrArg _ (Option.some.inj whole)
    | real x => cases whole
  exact ⟨n, Number.isAtMost_whole.mp enough, Setting.required_eq_ok_iff.mpr known,
    Setting.truncate_of_whole whole⟩

/-- No search for one root blames a setting. -/
theorem avoids_find (e : Expression) (a b : Number) :
    Avoids Failure.BlamesSetting (Root.find settings {} e a b) := by
  -- The method is known, and tolerance and limit are such that no search minds them.
  obtain ⟨method, chosen⟩ := inRange.exists_method
  refine Root.avoids_find narrow_blamesSetting (chosen ▸ .ok method) ?_ ?_ ?_
  · exact fun _ _ tolerance given => inRange.isAtMost_toleranceFor given
  · exact fun _ limit given n whole => inRange.nonneg_maxIterationsFor given whole
  · exact fun left right _ _ => Root.avoids_checkInterval narrow_blamesSetting nofun e left right

/-- No grid blames a setting for the number of its points. -/
theorem avoids_grid (numeric : settings.Numeric) (start stop : Number) :
    Avoids Failure.BlamesSetting (Sampling.grid settings start stop none) := by
  -- Two points or more are in range, and no grid asks for more.
  obtain ⟨n, enough, counted, -⟩ := inRange.exists_numPoints numeric
  refine Sampling.avoids_grid narrow_blamesSetting start stop none fun _ count given => ?_
  obtain rfl := Except.ok.inj (counted.symm.trans given)
  rw [Bool.eq_false_iff, Ne, Number.isBelow_whole, not_lt]
  exact enough

/-- No search for all roots blames a setting. -/
theorem avoids_sweep (numeric : settings.Numeric) (e : Expression) (a b : Number) :
    Avoids Failure.BlamesSetting (Sweep.find settings {} e a b none).roots := by
  -- The number of points is in range, and each bracket is a search for one root.
  obtain ⟨n, enough, -, counted⟩ := inRange.exists_numPoints numeric
  refine Sweep.avoids_find narrow_blamesSetting nofun (fun _ count given => ?_) ?_
  · obtain rfl := Except.ok.inj (counted.symm.trans given)
    exact enough
  · exact fun shown _ bracket _ => inRange.avoids_find e _ _

/-- Operations that fall back on settings in their ranges do not blame them. -/
theorem not_blamesSetting (numeric : settings.Numeric) {failure : Failure}
    (fails : settings.FailsWith failure) : ¬failure.BlamesSetting := by
  have narrow := narrow_blamesSetting
  obtain ⟨policy, known⟩ := inRange.exists_policy
  have policies : Avoids Failure.BlamesSetting (settings.policyFor {}) := known ▸ .ok policy
  -- Each operation is made of steps that blame no setting.
  cases fails with
  | tokens text failed => exact Expression.avoids_tokenize narrow policies text failure failed
  | order tokens failed => exact Expression.avoids_order narrow none tokens failure failed
  | expression text failed => exact Expression.avoids_ofText narrow policies text failure failed
  | value e x failed => exact e.avoids_evaluate narrow x failure failed
  | quantity e x failed => exact e.avoids_evaluateQuantity narrow x failure failed
  -- The root of a search is its estimate, whose rounding blames no setting either.
  | root e a b failed =>
    refine Avoids.bind (inRange.avoids_find e a b) (fun run _ => ?_) failure failed
    exact Setting.avoids_round narrow _ _
  | roots e a b failed => exact inRange.avoids_sweep numeric e a b failure failed
  | grid start stop failed => exact inRange.avoids_grid numeric start stop failure failed
  -- A table is a grid with the values at its points.
  | table e start stop failed =>
    refine Avoids.bind (inRange.avoids_grid numeric start stop) (fun points _ => ?_) failure failed
    exact (e.avoids_evaluateAll narrow points).bind fun values _ => .ok _

end InRange

/--
Settings that have been validated are never blamed, and settings that can be blamed are rejected.

The settings that are to be numbers are so, and all others may be of any sort. What can be blamed
are an unknown policy or method, too few points of a grid, and a tolerance or a limit that Brent's
search cannot use, in any operation that is asked for nothing in place of the settings.
-/
theorem validate_guards (settings : Settings) (numeric : settings.Numeric) :
    (settings.validate = .ok () →
      ∀ failure, settings.FailsWith failure → ¬failure.BlamesSetting) ∧
    ((∃ failure, settings.FailsWith failure ∧ failure.BlamesSetting) →
      ∃ setting, settings.validate = .error (.misconfigured setting)) := by
  -- The second half is the first one turned around: with a blame, the checks cannot have passed.
  have guards (valid : settings.validate = .ok ()) (failure : Failure)
      (fails : settings.FailsWith failure) : ¬failure.BlamesSetting :=
    (validate_eq_ok_iff.mp valid).not_blamesSetting numeric fails
  refine ⟨guards, ?_⟩
  rintro ⟨failure, fails, blamed⟩
  rcases numeric.validate_cases with valid | rejected
  · exact absurd blamed (guards valid failure fails)
  · exact rejected

/-- Settings with which Brent's search is asked for an exact root. -/
def zeroTolerance : Settings where
  method := .text "brentq"
  tolerance := .number (.whole 0)

/-- A search by default is refused without blame; one for an exact root blames the tolerance. -/
theorem validate_guards_zeroTolerance :
    Numeric {} ∧ ({} : Settings).validate = .ok () ∧
      FailsWith {} (.search .noSignChange) ∧ ¬Failure.BlamesSetting (.search .noSignChange) ∧
    zeroTolerance.Numeric ∧ zeroTolerance.FailsWith (.argument (.narrowTolerance 0)) ∧
      Failure.BlamesSetting (.argument (.narrowTolerance 0)) ∧
      ∃ setting, zeroTolerance.validate = .error (.misconfigured setting) := by
  -- By default everything is in range; an exact root is asked for with a tolerance of zero.
  have numeric : Numeric {} := ⟨rfl, rfl, rfl, rfl⟩
  have valid : ({} : Settings).validate = .ok () := rfl
  have refused : FailsWith {} (.search .noSignChange) := .root Root.letter (.real 1) (.real 2) rfl
  have numericZero : zeroTolerance.Numeric := ⟨rfl, rfl, rfl, rfl⟩
  have narrow : zeroTolerance.FailsWith (.argument (.narrowTolerance 0)) :=
    .root Root.letter (.real (-1)) (.real 2) rfl
  have blamed : Failure.BlamesSetting (.argument (.narrowTolerance 0)) := .tolerance 0
  exact ⟨numeric, valid, refused, (validate_guards {} numeric).1 valid _ refused, numericZero,
    narrow, blamed, (validate_guards zeroTolerance numericZero).2 ⟨_, narrow, blamed⟩⟩

end Settings

end Formula
