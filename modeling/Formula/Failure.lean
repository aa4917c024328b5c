import Formula.Arrangement
import Formula.Decimal.Notation
import Formula.Lexer
import Formula.Number
import Formula.Postfix.Conversion
import Formula.Postfix.Evaluation
import Formula.Text.Quoted

/-! Failures: every reason for which an operation on formulas has no answer. -/

namespace Formula

/-- A text or a row of tokens that cannot be understood. -/
inductive FormulaFault where
  | lexical (fault : LexicalFault)
  | order (fault : OrderFault)
  | evaluation (fault : EvaluationFault)
  deriving DecidableEq

namespace FormulaFault

/-- The wording of what cannot be understood. -/
def message : FormulaFault → String
  | lexical fault => fault.message
  | order fault => fault.message
  | evaluation fault => fault.message

/-- The place of what cannot be understood; only lexical faults have one. -/
def position? : FormulaFault → Option Nat
  | lexical fault => fault.position?
  | _ => none

end FormulaFault

/-- A search for roots that cannot start. -/
inductive SearchFault where
  | constant
  | noSignChange
  deriving DecidableEq

/-- The wording of a search that cannot start. -/
def SearchFault.message : SearchFault → String
  | constant => "The expression is not a function of x!"
  | noSignChange => "Root is not present in the given interval!"

/-- An argument or setting whose value is not among the admitted ones. -/
inductive ArgumentFault where
  | unknownPolicy (given : String)
  | unknownMethod (given : String)
  | tooFewPoints
  | unequalLengths
  | narrowTolerance (tolerance : Float)
  | negativeLimit
  | notWhole (given : String)
  | undefinedAt (x : Float)
  | unusableSetting

namespace ArgumentFault

/-- The wording of a value that is not admitted. -/
def message : ArgumentFault → String
  | unknownPolicy given => "Unknown conflict policy: " ++ given
  | unknownMethod given => "Unknown root finding method: " ++ given
  | tooFewPoints => "num must be at least 2"
  | unequalLengths => "xs and ys must have the same length"
  | narrowTolerance tolerance => "xtol too small (" ++ Decimal.generalText tolerance ++ " <= 0)"
  | negativeLimit => "maxiter must be >= 0"
  | notWhole given =>
    -- Only the beginning of a long text is shown.
    "invalid literal for int() with base 10: "
      ++ String.ofList ((Text.quoted given).toList.take 200)
  | undefinedAt x =>
    "The function value at x=" ++ Decimal.text x ++ " is NaN; solver cannot continue."
  | unusableSetting => "a setting has no numeric value"

end ArgumentFault

/-- A limit of steps that a counter does not hold. -/
inductive LimitFault where
  | aboveCounter
  | belowCounter
  | outsideWords
  deriving DecidableEq

/-- The wording of a limit that a counter does not hold. -/
def LimitFault.message : LimitFault → String
  | aboveCounter => "signed integer is greater than maximum"
  | belowCounter => "signed integer is less than minimum"
  | outsideWords => NumberFault.outsideSigned.message

/-- A setting that is out of its range. -/
inductive Misconfiguration where
  | conflictPolicy
  | maxIterations
  | tolerance
  | decimals
  | method
  | numPoints
  deriving DecidableEq

/-- The wording of a setting that is out of its range. -/
def Misconfiguration.message : Misconfiguration → String
  | conflictPolicy => "未知的冲突处理策略"
  | maxIterations => "迭代次数必须为正"
  | tolerance => "容差必须为正"
  | decimals => "小数位不能为负"
  | method => "未知的求根方法"
  | numPoints => "采样点至少为2"

/-- Why an operation has no answer. -/
inductive Failure where
  | formula (fault : FormulaFault)
  | search (fault : SearchFault)
  | argument (fault : ArgumentFault)
  | number (fault : NumberFault)
  | limit (fault : LimitFault)
  | arrangement (fault : ArrangementFault)
  | misconfigured (setting : Misconfiguration)

namespace Failure

/-- The wording of a failure. -/
def message : Failure → String
  | formula fault => fault.message
  | search fault => fault.message
  | argument fault => fault.message
  | number fault => fault.message
  | limit fault => fault.message
  | arrangement fault => fault.message
  | misconfigured setting => setting.message

/-- The place of a failure in the text, if it has one. -/
def position? : Failure → Option Nat
  | formula fault => fault.position?
  | _ => none

end Failure

end Formula
