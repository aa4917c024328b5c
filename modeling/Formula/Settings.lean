import Formula.Failure
import Formula.Record

/-! Settings: the values that operations fall back on, and the checks on them. -/

namespace Formula

/-- The value of a setting, which may be of any sort. -/
inductive Setting where
  | absent
  | flag (holds : Bool)
  | number (value : Number)
  | text (value : String)

namespace Setting

/-- A setting counts as set unless it is absent, false, zero or empty. -/
def isSet : Setting → Bool
  | absent => false
  | flag holds => holds
  | number value => value.isNonzero
  | text value => value != ""

/-- A setting as it is shown to a reader. -/
def describe : Setting → String
  | absent => "None"
  | flag true => "True"
  | flag false => "False"
  | number value => value.text
  | text value => value

/-- The number that a setting is; flags count as zero and one. -/
def number? : Setting → Option Number
  | flag holds => some (.whole (if holds then 1 else 0))
  | number value => some value
  | _ => none

/-- The whole number that a setting is. -/
def whole? (setting : Setting) : Option Int :=
  setting.number?.bind Number.whole?

/-- A given number stands in place of a setting. -/
def orGiven (setting : Setting) (given : Option Number) : Setting :=
  match given with
  | some value => number value
  | none => setting

/-- A setting whose value is needed but cannot be used. -/
def required {α : Type} (value : Option α) : Except Failure α :=
  match value with
  | some value => .ok value
  | none => .error (.argument .unusableSetting)

/-- The whole number that a setting writes, or is when it is truncated. -/
def truncate : Setting → Except Failure Int
  | text value =>
    match readWhole? value with
    | some n => .ok n
    | none => .error (.argument (.notWhole value))
  | setting => do
    let value ← required setting.number?
    value.truncate.mapError .number

/-- A double rounded to as many places as a setting says; an absent one says whole numbers. -/
def round (decimals : Setting) (x : Float) : Except Failure Float :=
  match decimals with
  | absent => (roundToWhole x).mapError .number
  | setting => do
    let places ← required setting.whole?
    (roundToPlaces places x).mapError .number

end Setting

/-- A way to close in on a root. -/
inductive Method where
  | regulaFalsi
  | bisection
  | brent
  deriving DecidableEq

namespace Method

/-- The written name of a method. -/
def name : Method → String
  | regulaFalsi => "regula_falsi"
  | bisection => "bisection"
  | brent => "brentq"

/-- The methods, in the order in which they are declared. -/
def all : List Method :=
  [regulaFalsi, bisection, brent]

/-- The method with a given name. -/
def ofName? (name : String) : Option Method :=
  all.find? fun method => method.name == name

end Method

/-- The settings of lexer, parser, root finder and sampling. -/
structure Settings where
  conflictPolicy : Setting := .text "strict"
  rejectUnknown : Setting := .flag true
  respectAssociativity : Setting := .flag false
  maxIterations : Setting := .number (.whole 100)
  tolerance : Setting := .number (.real 1e-10)
  decimals : Setting := .number (.whole 10)
  method : Setting := .text "regula_falsi"
  numPoints : Setting := .number (.whole 201)

/-- The text of a setting, or nothing when it is of another sort. -/
def Setting.named? {α : Type} (ofName? : String → Option α) : Setting → Option α
  | .text value => ofName? value
  | _ => none

/-- A given name that is not empty stands; otherwise the setting does. -/
def nameOr (given : Option String) (setting : Setting) : Setting :=
  match given with
  | some name => if name = "" then setting else .text name
  | none => setting

/-- What a caller may ask of the reading of a formula, in place of the settings. -/
structure ReadingOptions where
  conflictPolicy : Option String := none
  rejectUnknown : Option Bool := none
  respectAssociativity : Option Bool := none

/-- What a caller may ask of a search for roots, in place of the settings. -/
structure SearchOptions where
  method : Option String := none
  maxIterations : Option Int := none
  tolerance : Option Number := none
  decimals : Option Int := none

namespace Settings

/-- The policy for clashes of tokens: the given one, or else the one of the settings. -/
def policyFor (settings : Settings) (options : ReadingOptions) :
    Except Failure ConflictPolicy :=
  let chosen := nameOr options.conflictPolicy settings.conflictPolicy
  match chosen.named? ConflictPolicy.ofName? with
  | some policy => .ok policy
  | none => .error (.argument (.unknownPolicy chosen.describe))

/-- Whether characters that belong to no token are refused. -/
def rejectsUnknown (settings : Settings) (options : ReadingOptions) : Bool :=
  options.rejectUnknown.getD settings.rejectUnknown.isSet

/-- Whether some operators group from the right. -/
def respectsAssociativity (settings : Settings) (given : Option Bool) : Bool :=
  given.getD settings.respectAssociativity.isSet

/-- The method of a search: the given one, or else the one of the settings. -/
def methodFor (settings : Settings) (options : SearchOptions) : Except Failure Method :=
  let chosen := nameOr options.method settings.method
  match chosen.named? Method.ofName? with
  | some method => .ok method
  | none => .error (.argument (.unknownMethod chosen.describe))

/-- The greatest number of steps of a search. -/
def maxIterationsFor (settings : Settings) (options : SearchOptions) : Except Failure Number :=
  Setting.required (settings.maxIterations.orGiven (options.maxIterations.map .whole)).number?

/-- The size of a function value that counts as zero. -/
def toleranceFor (settings : Settings) (options : SearchOptions) : Except Failure Number :=
  Setting.required (settings.tolerance.orGiven options.tolerance).number?

/-- What says how many decimal places roots are rounded to, which no search needs before its end. -/
def decimalsFor (settings : Settings) (options : SearchOptions) : Setting :=
  settings.decimals.orGiven (options.decimals.map .whole)

/-- A setting is in range when it is a number and passes a test. -/
def checkNumber (setting : Setting) (test : Number → Bool) (otherwise : Misconfiguration) :
    Except Failure Unit := do
  let value ← Setting.required setting.number?
  if test value then .ok () else .error (.misconfigured otherwise)

/-- A setting is in range when it has a known name. -/
def checkName {α : Type} (setting : Setting) (ofName? : String → Option α)
    (otherwise : Misconfiguration) : Except Failure Unit :=
  if (setting.named? ofName?).isSome then .ok () else .error (.misconfigured otherwise)

/-- The checks on all settings, in a fixed order, the first failure of which is reported. -/
def validate (settings : Settings) : Except Failure Unit := do
  checkName settings.conflictPolicy ConflictPolicy.ofName? .conflictPolicy
  checkNumber settings.maxIterations (Number.isBelow (.whole 0)) .maxIterations
  checkNumber settings.tolerance (Number.isBelow (.whole 0)) .tolerance
  checkNumber settings.decimals (Number.isAtMost (.whole 0)) .decimals
  checkName settings.method Method.ofName? .method
  checkNumber settings.numPoints (Number.isAtMost (.whole 2)) .numPoints

/-- What is noted when all settings are in range. -/
def validated : Record :=
  ⟨.info, "Configuration validated successfully!"⟩

end Settings

end Formula
