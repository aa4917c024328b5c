import Formula.CommandLine
import Formula.Proofs.CommandLine.Arguments

/-! The command line agrees with evaluation wherever its arguments are taken for what they are. -/

namespace Formula.CommandLine

/-- What the library makes of a formula at a number. -/
def evaluated (text : String) (x : Float) : Except Failure Float :=
  match Expression.ofText {} {} text with
  | .error failure => .error failure
  | .ok e => e.evaluate (some x)

/-- A run ends as an evaluation does: a value is printed, and a failure is noted at the end. -/
def Run.Reports (run : Run) : Except Failure Float → Prop
  | .ok y => run.ending = .ok ⟨0, Decimal.text y ++ "\n"⟩
  | .error failure => run.ending = .ok ⟨1, ""⟩ ∧
      run.records.getLast? = some ⟨.error, "InvalidSyntaxError: " ++ failure.message⟩

/-- Under the settings as they are, only the formula itself can fail to be read. -/
theorem exists_fault_of_ofText {text : String} {failure : Failure}
    (failed : Expression.ofText {} {} text = .error failure) :
    ∃ fault, failure = .formula fault := by
  -- No policy is named in the settings that could be unknown.
  have chosen : ({} : Settings).policyFor {} = .ok .strict := rfl
  unfold Expression.ofText Expression.tokenize at failed
  rw [chosen] at failed
  simp only at failed
  -- What is left are the faults of scanning and of sorting.
  cases lexed : Formula.tokenize .strict (({} : Settings).rejectsUnknown {}) text with
  | error fault =>
    rw [lexed] at failed
    cases failed
    exact ⟨_, rfl⟩
  | ok tokens =>
    simp only [lexed, Expression.order] at failed
    cases sorted : Postfix.order (({} : Settings).respectsAssociativity none) tokens with
    | error fault =>
      simp only [sorted, Except.map, Except.error.injEq] at failed
      exact ⟨_, failed.symm⟩
    | ok ordered => simp [sorted, Except.map] at failed

/-- A failed evaluation is one of the formula. -/
theorem exists_fault_of_evaluate {e : Expression} {x : Option Float} {failure : Failure}
    (failed : e.evaluate x = .error failure) : ∃ fault, failure = .formula fault := by
  -- A program only fails with faults of evaluation, which are faults of the formula.
  unfold Expression.evaluate at failed
  cases result : e.program.evaluate x with
  | error fault =>
    rw [result] at failed
    cases failed
    exact ⟨_, rfl⟩
  | ok value =>
    rw [result] at failed
    cases failed

/-- A request for a value is answered as the formula is evaluated. -/
theorem reports_run {text program : String} {x : Float} {arguments : List String}
    (asked : Request.ofArguments arguments =
      .ok (text, { formula := some text, x := some x })) :
    (run {} arguments program).Reports (evaluated text x) := by
  have valid : ({} : Settings).validate = .ok () := rfl
  unfold run evaluated
  rw [asked]
  simp only [valid]
  -- The formula fails to be read, or else it has a value or none.
  cases read : Expression.ofText {} {} text with
  | error failure =>
    obtain ⟨fault, rfl⟩ := exists_fault_of_ofText read
    exact ⟨rfl, rfl⟩
  | ok e =>
    have answered : answer {} { formula := some text, x := some x } e =
        (e.evaluate (some x)).map Decimal.text := rfl
    simp only [respond, answered]
    cases valued : e.evaluate (some x) with
    | error failure =>
      obtain ⟨fault, rfl⟩ := exists_fault_of_evaluate valued
      exact ⟨rfl, rfl⟩
    | ok y => simp [Run.Reports, Except.map]

/-- The text of a number is plain, unless it has a minus sign and an exponent. -/
def IsPlainNumber (x : Float) : Prop :=
  Double.isNegative x = true → (Decimal.shortest x).IsPositional

/-- How a line ends that does not ask for a value: with help if it wants that, else as misused. -/
def unanswered (program text : String) : Ending :=
  if Piece.asksForHelp text.toList then ⟨0, Help.screen program⟩ else ⟨2, ""⟩

/-- A line whose formula or number is not plain does not ask for a value. -/
theorem run_of_not_plain (program : String) {text : String} {x : Float}
    (finite : x.isFinite = true) (special : ¬(Piece.IsPlain text ∧ IsPlainNumber x)) :
    run {} [text, "--x", Decimal.text x] program = ⟨[], .ok (unanswered program text)⟩ := by
  have number := Piece.ofArgument?_text finite
  have halted : Request.ofArguments [text, "--x", Decimal.text x] =
      .error (if Piece.asksForHelp text.toList then .help else .misuse) := by
    by_cases formula : Piece.IsPlain text
    · -- A plain formula is not a request for help, so that the number is to blame.
      have noHelp : ¬Piece.asksForHelp text.toList = true := by
        rw [← Piece.ofArgument?_eq_help_iff, (Piece.ofArgument?_eq_plain_iff text).mpr formula]
        simp
      have scientific : ¬IsPlainNumber x := fun positional => special ⟨formula, positional⟩
      rw [IsPlainNumber, Classical.not_imp] at scientific
      rw [if_pos scientific] at number
      rw [if_neg noHelp]
      exact Request.ofArguments_of_unknownOption formula number
    · -- Then it does not matter how the number is read.
      exact Request.ofArguments_of_not_plain formula number
  rw [run, halted, unanswered]
  split_ifs <;> rfl

/-- The help screen begins with a letter that no written number begins with. -/
theorem screen_ne_text (program : String) (y : Float) :
    Help.screen program ≠ Decimal.text y ++ "\n" := by
  intro same
  -- The screen starts with how the program is used.
  have screen : (Help.screen program).toList.head? = some 'u' := by
    simp only [Help.screen, Help.usage, String.toList_append, String.append_assoc]
    rfl
  have written : (Decimal.text y ++ "\n").toList.head? ≠ some 'u' := by
    -- A finite number begins with a digit or a minus sign, and the others have names.
    cases finite : y.isFinite with
    | true =>
      obtain ⟨c, rest, first, digit⟩ := (Decimal.shortest y).head_write
      rw [String.toList_append, Decimal.toList_text finite, first]
      cases Double.isNegative y
      · simpa [Numeral.minus] using Numeral.ne_of_isDigit digit (by decide)
      · simp [Numeral.minus]
    | false =>
      rw [Decimal.text, Decimal.writeSigned, finite, if_neg Bool.false_ne_true]
      split_ifs <;> decide
  exact written (same ▸ screen)

/--
Exactly with a plain formula and a plain number, the command line ends as evaluation does.

All other lines with a formula and a number show the help screen, or they are refused as misused.
-/
theorem reports_run_iff (program text : String) {x : Float} (finite : x.isFinite = true) :
    ((run {} [text, "--x", Decimal.text x] program).Reports (evaluated text x) ↔
      Piece.IsPlain text ∧ IsPlainNumber x) ∧
    (¬(Piece.IsPlain text ∧ IsPlainNumber x) →
      run {} [text, "--x", Decimal.text x] program = ⟨[], .ok (unanswered program text)⟩) := by
  refine ⟨⟨fun reports => ?_, ?_⟩, run_of_not_plain program finite⟩
  · -- Neither an exit code of its own nor a help screen is what evaluation comes to.
    by_contra special
    rw [run_of_not_plain program finite special, unanswered] at reports
    cases outcome : evaluated text x with
    | ok y =>
      rw [outcome] at reports
      split_ifs at reports
      · -- Help has the same exit code as a value, so that the printed texts are compared.
        injection reports with same
        injection same with code shown
        exact screen_ne_text program y shown
      · cases reports
    | error failure =>
      rw [outcome] at reports
      split_ifs at reports <;> cases reports.1
  · rintro ⟨formula, positional⟩
    have number := Piece.ofArgument?_text finite
    rw [if_neg fun special => special.2 (positional special.1)] at number
    have read := Decimal.readFloat?_text finite
    exact reports_run (Request.ofArguments_of_plain formula number read)

/-- A minus sign can be first in what is plain, but with a letter after it may ask for help. -/
theorem reports_run_iff_negative :
    (-2.5 : Float).isFinite = true ∧ Decimal.text (-2.5) = "-2.5" ∧
      (run {} ["- (x)", "--x", Decimal.text (-2.5)]).ending =
        .ok ⟨0, Decimal.text 2.5 ++ "\n"⟩ ∧
      (run {} ["-h (x)", "--x", Decimal.text (-2.5)]).ending =
        .ok ⟨0, Help.screen "formula"⟩ := by
  have finite : (-2.5 : Float).isFinite = true := rfl
  have found : Decimal.shortest (-2.5) = ⟨25, -1⟩ := by
    have untrimmed : Decimal.shortest (-2.5) = Decimal.trimZeros ⟨25, -1⟩ :=
      congrArg Decimal.trimZeros rfl
    rw [untrimmed, Decimal.trimZeros]
    rfl
  have written : Decimal.text (-2.5) = "-2.5" := by
    rw [Decimal.text, found]
    rfl
  -- The formula has a space, and the number has no exponent.
  have formula : Piece.IsPlain "- (x)" :=
    .inr (.inr (.inr ⟨by decide, by decide, by decide⟩))
  have number : IsPlainNumber (-2.5) := by
    intro negative
    rw [found]
    decide
  -- The two minus signs, of the formula and of the number, cancel.
  have valued : evaluated "- (x)" (-2.5) = .ok 2.5 := rfl
  have reports := (reports_run_iff "formula" "- (x)" finite).1.mpr ⟨formula, number⟩
  rw [valued] at reports
  -- A space does not help after the letter that asks for help.
  have special : ¬Piece.IsPlain "-h (x)" := by
    rw [← Piece.ofArgument?_eq_plain_iff]
    intro plain
    cases plain
  have helped := (reports_run_iff "formula" "-h (x)" finite).2 fun both => special both.1
  exact ⟨finite, written, reports, congrArg Run.ending helped⟩

/-- With a minus sign first and no space, a formula that has a value is taken for an option. -/
theorem run_sign_first :
    (1 : Float).isFinite = true ∧ evaluated "-x" 1 = .ok (-1) ∧
      run {} ["-x", "--x", Decimal.text 1] = ⟨[], .ok ⟨2, ""⟩⟩ ∧
        ¬(run {} ["-x", "--x", Decimal.text 1]).Reports (evaluated "-x" 1) := by
  have finite : (1 : Float).isFinite = true := rfl
  have valued : evaluated "-x" 1 = .ok (-1) := rfl
  have special : ¬Piece.IsPlain "-x" := by
    rw [← Piece.ofArgument?_eq_plain_iff]
    -- Nothing about it is plain, because it has no space and is no number.
    intro plain
    cases plain
  have refused : run {} ["-x", "--x", Decimal.text 1] = ⟨[], .ok ⟨2, ""⟩⟩ :=
    run_of_not_plain "formula" finite fun both => special both.1
  refine ⟨finite, valued, refused, ?_⟩
  rw [refused, valued]
  intro reports
  cases reports

end Formula.CommandLine
