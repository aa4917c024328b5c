import Formula.Proofs.Postfix.Conservation
import Formula.Proofs.Postfix.Evaluation

/-! The variable among its tokens decides whether an expression asks for a value of x. -/

namespace Formula

/-- Only the token of the variable asks for its value. -/
theorem Token.isVariable_of_instruction {token : Token} (asks : token.instruction = .variable) :
    token.isVariable = true := by
  -- Other literals are numbers, and tokens of other kinds are no literals.
  cases kind : token.kind with
  | literal =>
    simp only [instruction, kind, literalInstruction] at asks
    -- A literal with another text is a number, or it is refused when it is converted.
    by_cases named : token.text = variableName
    · simp [isVariable, kind, named]
    · simp only [named, if_false] at asks
      split at asks <;> cases asks
  | operator | function =>
    simp only [instruction, kind] at asks
    split at asks <;> cases asks
  | leftParen | rightParen | comma => simp [instruction, kind] at asks

/-- The token of the variable asks for its value. -/
theorem Token.instruction_of_isVariable {token : Token} (letter : token.isVariable = true) :
    token.instruction = .variable := by
  -- Kind and text are what the instruction is chosen by.
  simp only [isVariable, Bool.and_eq_true, beq_iff_eq] at letter
  simp [instruction, letter.1, literalInstruction, letter.2]

namespace Program

variable {α : Type} [Arithmetic α]

/-- A program that does not ask for the variable does the same whatever is given for it. -/
theorem run_of_noVariable (x y : Option α) {program : Program}
    (unasked : ∀ instruction ∈ program, instruction ≠ .variable) :
    ∀ stack, run x stack program = run y stack program := by
  -- Each of its instructions does.
  induction program with
  | nil => exact fun _ => rfl
  | cons instruction rest ih =>
    intro stack
    have stepped : step x stack instruction = step y stack instruction := by
      cases instruction with
      | «variable» => exact absurd rfl (unasked .variable (by simp))
      | number | operation | refused => rfl
    simp only [run, stepped]
    -- The two runs stop together, or go on from the same stack.
    cases step y stack instruction with
    | error fault => rfl
    | ok next => exact ih (fun other member => unasked other (by simp [member])) next

/-- A program that asks for the variable fails where nothing is given for it. -/
theorem run_none_of_variable {program : Program} (asked : .variable ∈ program) :
    ∀ stack : List α, ∃ fault, run none stack program = .error fault := by
  -- It fails at the variable, unless an instruction before it fails already.
  induction program with
  | nil => cases asked
  | cons instruction rest ih =>
    intro stack
    cases stepped : step none stack instruction with
    | error fault => exact ⟨fault, by simp [run, stepped]⟩
    | ok next =>
      -- Where the step succeeds, it was not the variable.
      have later : .variable ∈ rest := by
        rcases List.mem_cons.mp asked with rfl | later
        · simp [step] at stepped
        · exact later
      obtain ⟨fault, failed⟩ := ih later next
      exact ⟨fault, by simp [run, stepped, failed]⟩

end Program

namespace Expression

/-- The postfix tokens of an expression that is read are its own, without parentheses and commas. -/
theorem perm_kept_of_ofText {settings : Settings} {options : ReadingOptions} {text : String}
    {e : Expression} (read : ofText settings options text = .ok e) :
    e.postfixTokens.Perm (Postfix.kept e.tokens) := by
  -- The conversion starts with an empty stack, on which nothing else waits.
  have waiting : Postfix.Waiting [] := nofun
  simpa [Postfix.kept] using Postfix.perm_of_orderFrom waiting (stages_of_ofText read).2

/-- The postfix tokens of an expression that is read are among its tokens. -/
theorem mem_tokens_of_ofText {settings : Settings} {options : ReadingOptions} {text : String}
    {e : Expression} (read : ofText settings options text = .ok e) :
    ∀ token ∈ e.postfixTokens, token ∈ e.tokens := by
  -- The conversion neither adds nor changes tokens.
  intro token member
  -- What is kept is a part of the tokens, so that a permutation of it has no others.
  exact (List.mem_filter.mp ((perm_kept_of_ofText read).mem_iff.mp member)).1

/-- An expression that depends on the variable asks for it. -/
theorem variable_mem_program {settings : Settings} {options : ReadingOptions} {text : String}
    {e : Expression} (read : ofText settings options text = .ok e) (depends : e.dependsOnX = true) :
    .variable ∈ e.program := by
  -- The variable is a literal, which the conversion keeps.
  obtain ⟨token, member, letter⟩ := List.any_eq_true.mp depends
  have literal : token.kind = .literal := by
    simp only [Token.isVariable, Bool.and_eq_true, beq_iff_eq] at letter
    exact letter.1
  have kept : token ∈ Postfix.kept e.tokens :=
    List.mem_filter.mpr ⟨member, by rw [literal]; rfl⟩
  exact List.mem_map.mpr ⟨token, (perm_kept_of_ofText read).mem_iff.mpr kept,
    Token.instruction_of_isVariable letter⟩

/-- An expression that does not depend on the variable has the same value everywhere. -/
theorem evaluate_of_not_dependsOnX {settings : Settings} {options : ReadingOptions} {text : String}
    {e : Expression} (read : ofText settings options text = .ok e)
    (independent : e.dependsOnX = false) (x y : Option Float) : e.evaluate x = e.evaluate y := by
  -- Without the variable among the tokens, no instruction asks for it.
  have unasked : ∀ instruction ∈ e.program, instruction ≠ .variable := by
    rintro instruction member rfl
    obtain ⟨token, inside, asks⟩ := List.mem_map.mp member
    have given : e.dependsOnX = true :=
      List.any_eq_true.mpr ⟨token, mem_tokens_of_ofText read token inside,
        Token.isVariable_of_instruction asks⟩
    rw [independent] at given
    cases given
  simp only [evaluate, Program.evaluate, Program.run_of_noVariable x y unasked]

/--
The variable among its tokens tells whether an expression depends on what is given for x.

Without it, all outcomes are the same, whether a number is given or not, and failures included. With
it, evaluation fails where no number is given.
-/
theorem evaluate_by_dependence {settings : Settings} {options : ReadingOptions} {text : String}
    {e : Expression} (read : ofText settings options text = .ok e) :
    (e.dependsOnX = false → ∀ x y : Option Float, e.evaluate x = e.evaluate y) ∧
      (e.dependsOnX = true → ∃ fault : EvaluationFault,
        e.evaluate none = .error (.formula (.evaluation fault))) := by
  refine ⟨evaluate_of_not_dependsOnX read, fun depends => ?_⟩
  -- A failure at the variable is one of evaluation, not of reading.
  obtain ⟨fault, failed⟩ :=
    Program.run_none_of_variable (α := Float) (variable_mem_program read depends) []
  exact ⟨fault, by simp [evaluate, Program.evaluate, failed]⟩

/-- A difference with the variable needs a number for it, and one without it takes any or none. -/
theorem evaluate_by_dependence_differences :
    (∃ e, ofText {} {} "x-1" = .ok e ∧ e.dependsOnX = true ∧ ∃ fault : EvaluationFault,
      e.evaluate none = .error (.formula (.evaluation fault))) ∧
    ∃ e, ofText {} {} "2-1" = .ok e ∧ e.dependsOnX = false ∧
      ∀ x y : Option Float, e.evaluate x = e.evaluate y := by
  -- Both texts are read by evaluation of the reader.
  have letter : ofText {} {} "x-1" = .ok ⟨"x-1",
      [⟨"x", .literal⟩, ⟨"-", .operator⟩, ⟨"1", .literal⟩],
      [⟨"x", .literal⟩, ⟨"1", .literal⟩, ⟨"-", .operator⟩]⟩ := rfl
  have digit : ofText {} {} "2-1" = .ok ⟨"2-1",
      [⟨"2", .literal⟩, ⟨"-", .operator⟩, ⟨"1", .literal⟩],
      [⟨"2", .literal⟩, ⟨"1", .literal⟩, ⟨"-", .operator⟩]⟩ := rfl
  exact ⟨⟨_, letter, rfl, (evaluate_by_dependence letter).2 rfl⟩,
    ⟨_, digit, rfl, (evaluate_by_dependence digit).1 rfl⟩⟩

end Expression

end Formula
