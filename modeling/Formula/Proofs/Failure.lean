import Formula.Root.Search
import Mathlib.Tactic.SplitIfs

/-! Failures that operations avoid: what an operation can fail with, its steps can fail with. -/

namespace Formula

/-- Two steps that succeed one after the other both succeed. -/
theorem exists_of_bind_eq_ok {ε α β : Type} {first : Except ε α} {next : α → Except ε β}
    {result : β} (ran : first >>= next = .ok result) :
    ∃ value, first = .ok value ∧ next value = .ok result := by
  -- The second step is only reached when the first has a value for it.
  cases first with
  | error failure => cases ran
  | ok value => exact ⟨value, rfl, ran⟩

/-- What succeeds with a result has it for its answer. -/
theorem eq_ok_of_toOption {ε α : Type} {answer : Except ε α} {result : α}
    (found : answer.toOption = some result) : answer = .ok result := by
  cases answer with
  | error failure => cases found
  | ok value => exact congrArg _ (Option.some.inj found)

/-- What succeeds with its faults widened succeeds as it is. -/
theorem eq_ok_of_mapError {ε ε' α : Type} {widen : ε → ε'} {answer : Except ε α} {result : α}
    (ran : answer.mapError widen = .ok result) : answer = .ok result := by
  -- Widening changes faults alone, so a value was there before.
  cases answer with
  | error fault => cases ran
  | ok value => exact congrArg _ (Except.ok.inj ran)

/-- A value that is needed is one that can be used. -/
theorem Setting.required_eq_ok_iff {α : Type} {value : Option α} {result : α} :
    required value = .ok result ↔ value = some result := by
  -- A setting that is not there is a failure, which is no result.
  cases value <;> simp [required]

/-- An answer, or a failure that is not of a given kind. -/
def Avoids (kind : Failure → Prop) {α : Type} (answer : Except Failure α) : Prop :=
  ∀ failure, answer = .error failure → ¬kind failure

namespace Avoids

variable {kind : Failure → Prop} {α β : Type}

/-- An answer is no failure. -/
theorem ok (value : α) : Avoids kind (.ok value) :=
  -- There is no failure that an answer could be.
  nofun

/-- A failure of another kind. -/
theorem error {failure : Failure} (other : ¬kind failure) :
    Avoids kind (.error failure : Except Failure α) :=
  fun _ failed => Except.error.inj failed ▸ other

/-- Two steps avoid what both of them avoid. -/
theorem bind {first : Except Failure α} {next : α → Except Failure β} (start : Avoids kind first)
    (later : ∀ value, first = .ok value → Avoids kind (next value)) :
    Avoids kind (first >>= next) := by
  -- The failure of the whole is that of the first step, or of the step after it.
  cases first with
  | error failure => exact error (start failure rfl)
  | ok value => exact later value rfl

/-- A change of the answer changes no failure. -/
theorem map {first : Except Failure α} (start : Avoids kind first) (f : α → β) :
    Avoids kind (first.map f) := by
  cases first with
  | error failure => exact error (start failure rfl)
  | ok value => exact ok (f value)

/-- Faults that are widened to failures of another kind. -/
theorem mapError {ε : Type} {widen : ε → Failure} {first : Except ε α}
    (other : ∀ fault, first = .error fault → ¬kind (widen fault)) :
    Avoids kind (first.mapError widen) := by
  -- Each fault is widened by itself, so each is looked at by itself.
  cases first with
  | error fault => exact error (other fault rfl)
  | ok value => exact ok value

/-- A row of steps avoids what each of them avoids. -/
theorem mapM {step : α → Except Failure β} (each : ∀ value, Avoids kind (step value))
    (values : List α) : Avoids kind (values.mapM step) := by
  -- The first step of the row comes before all others, for which the claim is known.
  induction values with
  | nil => exact ok []
  | cons value rest ih =>
    rw [List.mapM_cons]
    exact (each value).bind fun first _ => ih.bind fun others _ => ok (first :: others)

end Avoids

/-- A kind to which no failure belongs that a formula, a conversion or an unusable value causes. -/
structure Narrow (kind : Failure → Prop) : Prop where
  formula : ∀ fault, ¬kind (.formula fault)
  number : ∀ fault, ¬kind (.number fault)
  limit : ∀ fault, ¬kind (.limit fault)
  unusable : ¬kind (.argument .unusableSetting)
  notWhole : ∀ given, ¬kind (.argument (.notWhole given))
  undefined : ∀ x, ¬kind (.argument (.undefinedAt x))

variable {kind : Failure → Prop} (narrow : Narrow kind) {settings : Settings}
  {options : SearchOptions} {e : Expression} {a b : Number}
include narrow

/-- A number that is converted or rounded, or that cannot be. -/
theorem Narrow.mapError_number {α : Type} (first : Except NumberFault α) :
    Avoids kind (first.mapError .number) :=
  .mapError fun fault _ => narrow.number fault

namespace Setting

/-- A setting that is needed as a number is one, or it is unusable. -/
theorem avoids_required {α : Type} (value : Option α) : Avoids kind (required value) := by
  cases value with
  | none => exact .error narrow.unusable
  | some value => exact .ok value

/-- A setting that is needed as a whole number is read, truncated or unusable. -/
theorem avoids_truncate (setting : Setting) : Avoids kind setting.truncate := by
  -- A text is the only setting whose reading can fail with a message of its own.
  cases setting with
  | text value =>
    cases read : readWhole? value with
    | none =>
      rw [truncate, read]
      exact .error (narrow.notWhole value)
    | some n =>
      rw [truncate, read]
      exact .ok n
  -- Anything else is taken as a number, and a number may have no whole part.
  | absent | flag | number =>
    exact (avoids_required narrow _).bind fun value _ => narrow.mapError_number value.truncate

/-- A root is rounded, unless the setting is unusable or the rounded root no double. -/
theorem avoids_round (decimals : Setting) (x : Float) : Avoids kind (decimals.round x) := by
  -- Without a setting there are no places to be read, and rounding alone can fail.
  cases decimals with
  | absent => exact narrow.mapError_number _
  | flag | number | text =>
    exact (avoids_required narrow _).bind fun places _ => narrow.mapError_number _

end Setting

namespace Expression

/-- An expression has a value, or its formula has none. -/
theorem avoids_evaluate (e : Expression) (x : Option Float) : Avoids kind (e.evaluate x) := by
  -- A fault in evaluation is one of the formula, and no other failure occurs.
  unfold evaluate
  split
  · exact .error (narrow.formula _)
  · exact .ok _

/-- An expression has a value at a quantity, or its formula has none. -/
theorem avoids_evaluateQuantity (e : Expression) (x : Option (Quantity Float)) :
    Avoids kind (e.evaluateQuantity x) := by
  -- The arrangement is put back around the values, and cannot fail.
  unfold evaluateQuantity
  split
  · exact .error (narrow.formula _)
  · exact .ok _

/-- An expression has values at several numbers, or its formula has none. -/
theorem avoids_evaluateAll (e : Expression) (xs : List Float) :
    Avoids kind (e.evaluateAll xs) := by
  unfold evaluateAll
  split
  · exact .error (narrow.formula _)
  · exact .ok _

/-- A text has tokens, or it has none, or the policy fails. -/
theorem avoids_tokenize {options : ReadingOptions}
    (policy : Avoids kind (settings.policyFor options)) (text : String) :
    Avoids kind (tokenize settings options text) := by
  -- The policy is looked up first, and what fails there is what fails here.
  unfold tokenize
  split
  · next failed => exact .error (policy _ failed)
  · split
    · exact .error (narrow.formula _)
    · exact .ok _

/-- Tokens have an order, or they have none. -/
theorem avoids_order (given : Option Bool) (tokens : List Token) :
    Avoids kind (order settings given tokens) := by
  unfold order
  split
  · exact .error (narrow.formula _)
  · exact .ok _

/-- A text writes an expression, or it has no tokens, or those have no order. -/
theorem avoids_ofText {options : ReadingOptions} (policy : Avoids kind (settings.policyFor options))
    (text : String) : Avoids kind (ofText settings options text) := by
  -- The tokens come first, and their order is only asked for when there are some.
  unfold ofText
  split
  · next failed => exact .error (avoids_tokenize narrow policy text _ failed)
  · exact (avoids_order narrow _ _).map _

end Expression

namespace Brent

omit narrow in
/-- A curve without a value at a point is undefined there. -/
theorem valueAt_error {f : Float → Float} {x : Float} {fault : ArgumentFault}
    (failed : valueAt f x = .error fault) : fault = .undefinedAt x := by
  -- The value is looked at once, and an undefined one is the only fault.
  unfold valueAt at failed
  dsimp only at failed
  split_ifs at failed
  exact (Except.error.inj failed).symm

omit narrow in
/-- The steps of Brent's search fail only where the curve is undefined. -/
theorem refine_error {f : Float → Float} {tolerance : Float} {fault : ArgumentFault} (limit : Nat) :
    ∀ {done : Nat} {s : State}, refine f tolerance limit done s = .error fault →
      ∃ x, fault = .undefinedAt x := by
  -- The induction is on the number of steps that are allowed.
  induction limit with
  | zero => exact nofun
  | succ limit ih =>
    intro done s failed
    unfold refine at failed
    dsimp only at failed
    split_ifs at failed
    -- With no root hit, the step moves the estimate, which needs the value there.
    split at failed
    · next reason moved =>
      cases failed
      unfold move at moved
      dsimp only at moved
      split at moved
      · next undefined =>
        cases moved
        exact ⟨_, valueAt_error undefined⟩
      · cases moved
    · -- A step that succeeds leaves the failure to the steps after it.
      exact ih failed

variable {tolerance limit : Number}

/-- A limit is counted in words unless it is negative or too large for them. -/
theorem avoids_stepCount {limit : Int} (counts : kind (.argument .negativeLimit) → 0 ≤ limit) :
    Avoids kind (stepCount limit) := by
  -- The limit is compared with the bounds of words before it is compared with zero.
  unfold stepCount
  split_ifs with outside above below negative
  · exact .error (narrow.limit _)
  · exact .error (narrow.limit _)
  · exact .error (narrow.limit _)
  · refine .error fun blamed => ?_
    have := counts blamed
    omega
  · exact .ok _

/-- The curve has a value at a point, or it is undefined there. -/
theorem avoids_valueAt (f : Float → Float) (x : Float) :
    Avoids kind ((valueAt f x).mapError .argument) :=
  .mapError fun _ failed => valueAt_error failed ▸ narrow.undefined x

/-- Brent's search checks its tolerance and its limit, and then the curve must be defined. -/
theorem avoids_search (f : Float → Float) (a b : Float)
    (wide : ∀ bound, kind (.argument (.narrowTolerance bound)) →
      tolerance.isAtMost (.whole 0) = false)
    (counts : kind (.argument .negativeLimit) → ∀ n, limit.whole? = some n → 0 ≤ n) :
    Avoids kind (search f tolerance limit a b) := by
  -- The checks come in this order: the form of the limit, the tolerance, then the limit itself.
  refine (Setting.avoids_required narrow _).bind fun whole read => ?_
  refine (narrow.mapError_number _).bind fun bound _ => ?_
  dsimp only
  split_ifs with slim
  · refine .error fun blamed => ?_
    rw [wide bound blamed] at slim
    cases slim
  · -- Only then is the curve looked at, first at both ends and then step by step.
    have given := Setting.required_eq_ok_iff.mp read
    refine (avoids_stepCount narrow fun blamed => counts blamed whole given).bind fun steps _ => ?_
    refine (avoids_valueAt narrow f a).bind fun valueLeft _ => ?_
    refine (avoids_valueAt narrow f b).bind fun valueRight _ => .mapError fun fault failed => ?_
    obtain ⟨x, rfl⟩ := refine_error steps failed
    exact narrow.undefined x

end Brent

namespace Root

/-- A method ends with an estimate, or Brent's search fails. -/
theorem avoids_estimate (method : Method) (f : Float → Float) {tolerance limit : Number}
    (a b : Float) (wide : ∀ bound, kind (.argument (.narrowTolerance bound)) →
      tolerance.isAtMost (.whole 0) = false)
    (counts : kind (.argument .negativeLimit) → ∀ n, limit.whole? = some n → 0 ≤ n) :
    Avoids kind (estimate method f tolerance limit a b) := by
  -- The other two methods have an estimate whatever the curve does.
  cases method with
  | regulaFalsi | bisection => exact .ok _
  | brent => exact Brent.avoids_search narrow f a b wide counts

/-- An interval is accepted or refused, or there is no value at one of its ends. -/
theorem avoids_checkInterval (search : ∀ fault, ¬kind (.search fault)) (e : Expression)
    (a b : Float) : Avoids kind (checkInterval e a b) := by
  -- A formula without the variable is refused before any value is asked for.
  unfold checkInterval
  dsimp only
  split_ifs
  · exact .error (search _)
  · refine (e.avoids_evaluate narrow _).bind fun valueLeft _ => ?_
    refine (e.avoids_evaluate narrow _).bind fun valueRight _ => ?_
    split_ifs
    · exact .error (search _)
    · exact .ok ()

/-- A search has a method, a tolerance and a limit, and its interval is checked before it starts. -/
theorem avoids_find (method : Avoids kind (settings.methodFor options))
    (wide : ∀ bound, kind (.argument (.narrowTolerance bound)) → ∀ tolerance,
      settings.toleranceFor options = .ok tolerance → tolerance.isAtMost (.whole 0) = false)
    (counts : kind (.argument .negativeLimit) → ∀ limit, settings.maxIterationsFor options =
      .ok limit → ∀ n, limit.whole? = some n → 0 ≤ n)
    (interval : ∀ left right, a.toFloat = .ok left → b.toFloat = .ok right →
      Avoids kind (checkInterval e left right)) : Avoids kind (find settings options e a b) := by
  -- The steps of a search are taken one after the other, each with its own failures.
  refine method.bind fun method _ => ?_
  refine (narrow.mapError_number _).bind fun left atLeft => ?_
  refine (narrow.mapError_number _).bind fun right atRight => ?_
  -- Only with both ends at hand is the interval checked.
  refine (interval left right (eq_ok_of_mapError atLeft) (eq_ok_of_mapError atRight)).bind
    fun _ _ => ?_
  refine (Setting.avoids_required narrow _).bind fun limit limited => ?_
  refine (Setting.avoids_required narrow _).bind fun tolerance bounded => ?_
  refine (avoids_estimate narrow method _ left right ?_ ?_).bind fun _ _ => .ok _
  · -- What the method is blamed for are the tolerance and the limit it is given.
    exact fun bound blamed => wide bound blamed tolerance bounded
  · exact fun blamed => counts blamed limit limited

end Root

/-- A grid has enough points, or too few of them, and its ends are converted to doubles. -/
theorem Sampling.avoids_grid (start stop : Number) (given : Option Number)
    (enough : kind (.argument .tooFewPoints) → ∀ count, pointCount settings given = .ok count →
      count.isBelow (.whole 2) = false) : Avoids kind (grid settings start stop given) := by
  -- The number of points is either asked for or a setting, and each is read in its own way.
  have counted : Avoids kind (pointCount settings given) := by
    cases given with
    | none => exact Setting.avoids_required narrow _
    | some count => exact narrow.mapError_number _
  -- Too few points are refused before the ends are converted.
  refine counted.bind fun count known => ?_
  dsimp only
  split_ifs with few
  · refine .error fun blamed => ?_
    rw [enough blamed count known] at few
    cases few
  · refine (narrow.mapError_number _).bind fun low _ => ?_
    refine (narrow.mapError_number _).bind fun high _ => ?_
    exact (Setting.avoids_required narrow _).bind fun last _ => .ok _

end Formula
