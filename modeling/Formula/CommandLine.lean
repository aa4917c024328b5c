import Formula.CommandLine.Help
import Formula.Layout
import Formula.Root.Search

/-! The command line: one formula is read, and evaluated, searched for roots or tabulated. -/

namespace Formula.CommandLine

/-- How a run of the command line ends. -/
structure Ending where
  exitCode : Nat
  output : String

/-- A run of the command line: what it notes, and its ending or the failure that cuts it short. -/
structure Run where
  records : List Record
  ending : Except Failure Ending

/-- The heading under which a failure of the formula itself is reported; others are not caught. -/
def heading? : Failure → Option String
  | .formula _ => some "InvalidSyntaxError"
  | .search _ => some "ComputationError"
  | _ => none

/-- Roots in a row, or a remark that there are none. -/
def renderRoots (roots : List Float) : String :=
  if roots.isEmpty then "no roots found" else ", ".intercalate (roots.map Decimal.text)

/-- What a request asks of an expression: one root before all roots, and those before a table. -/
def answer (settings : Settings) (request : Request) (e : Expression) :
    Except Failure String :=
  let options : SearchOptions := { method := request.method }
  match request.root, request.roots, request.table with
  | some (a, b), _, _ => do
    let run ← Root.find settings options e (.real a) (.real b)
    return Decimal.text (← run.root)
  | none, some (a, b), _ =>
    (Sweep.find settings options e (.real a) (.real b) none).roots.map renderRoots
  | none, none, some (start, stop, count) =>
    (ValueTable.ofExpression settings e (.real start) (.real stop) (some (.real count))).map
      ValueTable.render
  | none, none, none => (e.evaluate request.x).map Decimal.text

/-- A failure of the formula ends the run with exit code one and keeps what was printed before. -/
def failed (records : List Record) (printed : String) (failure : Failure) : Run :=
  match heading? failure with
  | some heading =>
    ⟨records ++ [⟨.error, heading ++ ": " ++ failure.message⟩], .ok ⟨1, printed⟩⟩
  | none => ⟨records, .error failure⟩

/-- Answers a request about an expression, after its postfix form if that is asked for. -/
def respond (settings : Settings) (request : Request) (e : Expression) : Run :=
  let records : List Record := [⟨.info, "Parsed expression: " ++ e.source⟩]
  let printed := if request.showPostfix then e.postfixText ++ "\n" else ""
  match answer settings request e with
  | .ok text => ⟨records, .ok ⟨0, printed ++ text ++ "\n"⟩⟩
  | .error failure => failed records printed failure

/--
A run of the command line by a program of some name.

Settings are checked before the formula is read, but only once the arguments are understood.
-/
def run (settings : Settings) (arguments : List String) (program : String := "formula") : Run :=
  match Request.ofArguments arguments with
  | .error .misuse => ⟨[], .ok ⟨2, ""⟩⟩
  | .error .help => ⟨[], .ok ⟨0, Help.screen program⟩⟩
  | .ok (formula, request) =>
    match settings.validate with
    | .error failure => ⟨[], .error failure⟩
    | .ok () =>
      match Expression.ofText settings {} formula with
      | .error failure => failed [] "" failure
      | .ok e => respond settings request e

end Formula.CommandLine
