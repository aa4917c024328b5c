import Formula.Proofs.Root.Bracketing

/-! What is asked for explicitly shuts out the settings, but for empty names and zero points. -/

namespace Formula

/-- Two settings say the same of tokens wherever a reader asks for nothing, or for an empty name. -/
structure ReadingOptions.Agree (options : ReadingOptions) (settings other : Settings) : Prop where
  policy : options.conflictPolicy.getD "" = "" → settings.conflictPolicy = other.conflictPolicy
  unknown : options.rejectUnknown = none → settings.rejectUnknown = other.rejectUnknown

/-- Two settings say the same of searches wherever a caller asks for nothing, or an empty name. -/
structure SearchOptions.Agree (options : SearchOptions) (settings other : Settings) : Prop where
  method : options.method.getD "" = "" → settings.method = other.method
  maxIterations : options.maxIterations = none → settings.maxIterations = other.maxIterations
  tolerance : options.tolerance = none → settings.tolerance = other.tolerance
  decimals : options.decimals = none → settings.decimals = other.decimals

/-- A name that is given and not empty stands whatever the setting is. -/
theorem nameOr_congr {given : Option String} {setting other : Setting}
    (agree : given.getD "" = "" → setting = other) : nameOr given setting = nameOr given other := by
  -- The setting is only asked where no name is given, or an empty one.
  cases given with
  | none => exact agree rfl
  | some name =>
    by_cases empty : name = ""
    · rw [agree empty]
    · -- With a name that is not empty, the settings are not in view at all.
      simp [nameOr, empty]

/-- A number that is given stands whatever the setting is. -/
theorem Setting.orGiven_congr {given : Option Number} {setting other : Setting}
    (agree : given = none → setting = other) : setting.orGiven given = other.orGiven given := by
  -- The setting is only asked where no number is given.
  cases given with
  | none => exact agree rfl
  | some value => rfl

/-- A flag that is given stands whatever the setting is. -/
theorem getD_isSet_congr {given : Option Bool} {setting other : Setting}
    (agree : given = none → setting = other) :
    given.getD setting.isSet = given.getD other.isSet := by
  -- A flag of either value decides, so only its absence leads to the settings.
  cases given with
  | none => rw [agree rfl]
  | some holds => rfl

variable {settings other : Settings}

namespace Expression

/-- Tokens depend on no setting that a reader overrides. -/
theorem tokenize_congr {options : ReadingOptions} (agree : options.Agree settings other)
    (text : String) : tokenize settings options text = tokenize other options text := by
  -- Tokens ask for two settings, and a reader can decide both of them.
  unfold tokenize Settings.policyFor Settings.rejectsUnknown
  rw [nameOr_congr agree.policy, getD_isSet_congr agree.unknown]

/-- The postfix order depends on no setting other than the one for associativity. -/
theorem order_congr {given : Option Bool}
    (agree : given = none → settings.respectAssociativity = other.respectAssociativity)
    (tokens : List Token) : order settings given tokens = order other given tokens := by
  unfold order Settings.respectsAssociativity
  rw [getD_isSet_congr agree]

/-- The expression of a text depends on no setting that its reader overrides. -/
theorem ofText_congr {options : ReadingOptions} (agree : options.Agree settings other)
    (associativity : options.respectAssociativity = none →
      settings.respectAssociativity = other.respectAssociativity) (text : String) :
    ofText settings options text = ofText other options text := by
  -- The tokens are the same, and so is what becomes of them.
  unfold ofText
  simp only [tokenize_congr agree, order_congr associativity]

end Expression

namespace SearchOptions

variable {options : SearchOptions}

/-- What a search works with is the same under settings that agree. -/
theorem Agree.choices (agree : options.Agree settings other) :
    settings.methodFor options = other.methodFor options ∧
      settings.maxIterationsFor options = other.maxIterationsFor options ∧
      settings.toleranceFor options = other.toleranceFor options ∧
      settings.decimalsFor options = other.decimalsFor options := by
  -- Counts are given as whole numbers, so nothing is given exactly where no count is.
  have iterations : settings.maxIterations.orGiven (options.maxIterations.map .whole) =
      other.maxIterations.orGiven (options.maxIterations.map .whole) :=
    Setting.orGiven_congr fun none => agree.maxIterations (Option.map_eq_none_iff.mp none)
  have tolerance := Setting.orGiven_congr agree.tolerance
  have decimals : settings.decimals.orGiven (options.decimals.map .whole) =
      other.decimals.orGiven (options.decimals.map .whole) :=
    Setting.orGiven_congr fun none => agree.decimals (Option.map_eq_none_iff.mp none)
  refine ⟨?_, ?_, ?_, decimals⟩
  · unfold Settings.methodFor
    rw [nameOr_congr agree.method]
  · rw [Settings.maxIterationsFor, iterations, Settings.maxIterationsFor]
  · rw [Settings.toleranceFor, tolerance, Settings.toleranceFor]

end SearchOptions

/-- A search for one root is the same under settings that agree. -/
theorem Root.find_congr {options : SearchOptions} (agree : options.Agree settings other)
    (e : Expression) (a b : Number) : find settings options e a b = find other options e a b := by
  -- A search looks at its settings through these four choices alone.
  obtain ⟨method, limit, tolerance, decimals⟩ := agree.choices
  unfold find
  rw [method, limit, tolerance, decimals]

/-- A grid is the same under settings that agree on the number of points, if none is given. -/
theorem Sampling.grid_congr {given : Option Number}
    (agree : given = none → settings.numPoints = other.numPoints) (start stop : Number) :
    grid settings start stop given = grid other start stop given := by
  -- The only setting that a grid asks for is the number of its points.
  have count : pointCount settings given = pointCount other given := by
    cases given with
    | none => rw [pointCount, agree rfl, pointCount]
    | some count => rfl
  unfold grid
  rw [count]

namespace Sweep

variable {options : SearchOptions} {points : Option Int}

/-- A number of points that is given and not zero stands whatever the settings are. -/
theorem pointsFor_congr (agree : points.getD 0 = 0 → settings.numPoints = other.numPoints) :
    pointsFor settings points = pointsFor other points := by
  -- Zero points are passed over as if none were given, and only these.
  cases points with
  | none => rw [pointsFor, agree rfl, pointsFor]
  | some count =>
    by_cases zero : count = 0
    · rw [pointsFor, agree zero, pointsFor]
    · simp [pointsFor, zero]

/-- The searches in a row of brackets are the same under settings that agree. -/
theorem overBrackets_congr (agree : options.Agree settings other) (e : Expression)
    (brackets : List (Float × Float)) : ∀ roots : List Float,
      overBrackets settings options e roots brackets =
        overBrackets other options e roots brackets := by
  -- The induction is on the brackets, each of which is searched alike.
  induction brackets with
  | nil => exact fun roots => rfl
  | cons bracket rest ih =>
    obtain ⟨left, right⟩ := bracket
    intro roots
    simp only [overBrackets, Root.find_congr agree, ih]

/-- A search for all roots is the same under settings that agree. -/
theorem find_congr (agree : options.Agree settings other)
    (counts : points.getD 0 = 0 → settings.numPoints = other.numPoints) (e : Expression)
    (a b : Number) : find settings options e a b points = find other options e a b points := by
  -- The number of points is settled first, so that the grid has one that is given.
  obtain ⟨-, -, -, decimals⟩ := agree.choices
  have grids (low high : Number) (count : Int) :
      Sampling.grid settings low high (some (.whole count)) =
        Sampling.grid other low high (some (.whole count)) :=
    Sampling.grid_congr (absurd · (Option.some_ne_none _)) low high
  -- What remains are the rounding of zeros and the searches in the brackets.
  unfold find
  simp only [pointsFor_congr counts, grids, decimals, overBrackets_congr agree]

end Sweep

/--
Under settings that agree wherever nothing is asked for, every operation comes to the same.

A name that is given decides unless it is empty, and a number of points unless it is zero; all else
that is given decides whatever it is. Settings may be of any sort, and where everything is decided
they may differ in everything. Values and failures are the same, and so is all that is noted of a
search.
-/
theorem Settings.overridden (settings other : Settings) :
    (∀ (options : ReadingOptions) (text : String), options.Agree settings other →
      Expression.tokenize settings options text = Expression.tokenize other options text) ∧
    (∀ (given : Option Bool) (tokens : List Token),
      (given = none → settings.respectAssociativity = other.respectAssociativity) →
        Expression.order settings given tokens = Expression.order other given tokens) ∧
    (∀ (options : ReadingOptions) (text : String), options.Agree settings other →
      (options.respectAssociativity = none →
        settings.respectAssociativity = other.respectAssociativity) →
        Expression.ofText settings options text = Expression.ofText other options text) ∧
    (∀ (options : SearchOptions) (e : Expression) (a b : Number), options.Agree settings other →
      Root.find settings options e a b = Root.find other options e a b) ∧
    (∀ (options : SearchOptions) (e : Expression) (a b : Number) (points : Option Int),
      options.Agree settings other →
      (points.getD 0 = 0 → settings.numPoints = other.numPoints) →
        Sweep.find settings options e a b points = Sweep.find other options e a b points) ∧
    ∀ (e : Expression) (start stop : Number) (given : Option Number),
      (given = none → settings.numPoints = other.numPoints) →
        Sampling.grid settings start stop given = Sampling.grid other start stop given ∧
        ValueTable.ofExpression settings e start stop given =
          ValueTable.ofExpression other e start stop given := by
  -- Each operation is the same by its own lemma, and a table adds its grid to the values.
  refine ⟨fun options text agree => Expression.tokenize_congr agree text,
    fun given tokens agree => Expression.order_congr agree tokens,
    fun options text agree associativity => Expression.ofText_congr agree associativity text,
    fun options e a b agree => Root.find_congr agree e a b,
    fun options e a b points agree counts => Sweep.find_congr agree counts e a b,
    fun e start stop given agree => ?_⟩
  have grids := Sampling.grid_congr agree start stop
  refine ⟨grids, ?_⟩
  unfold ValueTable.ofExpression
  rw [grids]

/-- Settings most of which no operation can use, against which everything is asked for. -/
def Settings.contrary : Settings where
  conflictPolicy := .text "lenient"
  rejectUnknown := .flag false
  respectAssociativity := .flag true
  maxIterations := .number (.whole (-1))
  tolerance := .text "wide"
  decimals := .absent
  method := .text "newton"
  numPoints := .number (.whole 1)

/-- What is asked for in full is answered alike by default and under contrary settings. -/
theorem Settings.overridden_contrary :
    let reading : ReadingOptions := ⟨some "strict", some true, some false⟩
    let search : SearchOptions := ⟨some "bisection", some 5, some (.whole 0), some 3⟩
    reading.Agree {} contrary ∧ search.Agree {} contrary ∧
      Expression.tokenize {} reading "x" = Expression.tokenize contrary reading "x" ∧
      Expression.order {} (some false) [⟨"x", .literal⟩] =
        Expression.order contrary (some false) [⟨"x", .literal⟩] ∧
      Expression.ofText {} reading "x" = Expression.ofText contrary reading "x" ∧
      Root.find {} search Root.letter (.real (-1)) (.real 2) =
        Root.find contrary search Root.letter (.real (-1)) (.real 2) ∧
      Sweep.find {} search Root.letter (.real (-1)) (.real 2) (some 2) =
        Sweep.find contrary search Root.letter (.real (-1)) (.real 2) (some 2) ∧
      ValueTable.ofExpression {} Root.letter (.real (-1)) (.real 2) (some (.whole 2)) =
        ValueTable.ofExpression contrary Root.letter (.real (-1)) (.real 2)
          (some (.whole 2)) := by
  -- Everything is asked for, so that nothing has to be compared between the settings.
  intro reading search
  have agree : reading.Agree {} contrary := by constructor <;> simp [reading]
  have agreeSearch : search.Agree {} contrary := by constructor <;> simp [search]
  obtain ⟨tokens, orders, expressions, single, all, grids⟩ := overridden {} contrary
  exact ⟨agree, agreeSearch, tokens reading "x" agree, orders _ _ (by simp),
    expressions reading "x" agree (by simp [reading]), single _ _ _ _ agreeSearch,
    all _ _ _ _ _ agreeSearch (by simp), (grids Root.letter _ _ _ (by simp)).2⟩

/-- Zero points, an empty method and an empty policy leave the decision to the settings. -/
theorem Settings.unheeded :
    let search : SearchOptions := ⟨some "bisection", some 5, some (.whole 0), some 3⟩
    let nameless : SearchOptions := ⟨some "", some 5, some (.whole 0), some 3⟩
    let reading : ReadingOptions := ⟨some "", some true, some false⟩
    (Sweep.find { numPoints := .number (.whole 2) } search Root.letter (.real (-1)) (.real 2)
        (some 0)).roots ≠
      (Sweep.find { numPoints := .number (.whole 1) } search Root.letter (.real (-1)) (.real 2)
        (some 0)).roots ∧
    Root.find {} nameless Root.letter (.real (-1)) (.real 2) ≠
      Root.find { method := .text "newton" } nameless Root.letter (.real (-1)) (.real 2) ∧
    Expression.tokenize {} reading "x" ≠
      Expression.tokenize { conflictPolicy := .text "lenient" } reading "x" := by
  intro search nameless reading
  refine ⟨fun same => ?_, fun same => ?_, fun same => ?_⟩
  · -- One point is refused where two are enough, although zero points are asked for.
    have few : (Sweep.find { numPoints := .number (.whole 1) } search Root.letter (.real (-1))
        (.real 2) (some 0)).roots = .error (.argument .tooFewPoints) := rfl
    have enough : (Sweep.find { numPoints := .number (.whole 2) } search Root.letter (.real (-1))
        (.real 2) (some 0)).roots.toOption.isSome = true := by decide +kernel
    rw [same, few] at enough
    cases enough
  · -- The empty name leaves the choice to a method that does not exist.
    have known : (Root.find {} nameless Root.letter (.real (-1)) (.real 2)).toOption.isSome =
        true := by decide +kernel
    rw [same] at known
    cases known
  · -- The empty policy leaves the choice to a policy that does not exist.
    cases same

end Formula
