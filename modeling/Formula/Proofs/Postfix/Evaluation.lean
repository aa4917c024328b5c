import Formula.Expression
import Formula.Proofs.Postfix.Tree
import Mathlib.Data.List.Forall2

/-! Evaluation of postfix tokens accepts exactly the postorders of well-formed trees. -/

namespace Formula

/-- The result of an operation on a row of operands, when they are as many as it takes. -/
def Operation.applyTo? {α : Type} [Arithmetic α] : Operation → List α → Option α
  | .unary operation, [a] => some (Arithmetic.unary operation a)
  | .binary operation, [a, b] => some (Arithmetic.binary operation a b)
  | _, _ => none

/-- An operation has a result on as many operands as it takes. -/
theorem Operation.applyTo?_of_length {α : Type} [Arithmetic α] {operation : Operation}
    {operands : List α} (count : operands.length = operation.arity) :
    ∃ result, operation.applyTo? operands = some result := by
  match operation, operands with
  | .unary operation, [a] => exact ⟨_, rfl⟩
  | .binary operation, [a, b] => exact ⟨_, rfl⟩

/-- The value of a literal: that of the variable, or the double that its text writes. -/
def Token.literalValue? {α : Type} [Arithmetic α] (x : Option α) (token : Token) : Option α :=
  if token.text = variableName then x else (readFloat? token.text).map Arithmetic.number

variable {α : Type} [Arithmetic α]

namespace TokenTree

mutual

/-- The value of a tree: operations are applied to the values below them, from left to right. -/
def value? (x : Option α) : TokenTree → Option α
  | node token children =>
    match token.kind with
    | .literal => if children.isEmpty then token.literalValue? x else none
    | .operator | .function =>
      (Operation.ofSymbol? token.text).bind fun operation =>
        (values? x children).bind operation.applyTo?
    | _ => none

/-- The values of a row of trees, when each of them has one. -/
def values? (x : Option α) : List TokenTree → Option (List α)
  | [] => some []
  | tree :: rest => (tree.value? x).bind fun value => (values? x rest).map (value :: ·)

end

/-- A row of trees has values exactly when each tree has its own. -/
theorem values?_eq_some_iff {x : Option α} {trees : List TokenTree} {values : List α} :
    values? x trees = some values ↔
      List.Forall₂ (fun tree value => tree.value? x = some value) trees values := by
  -- A row has values one tree at a time.
  induction trees generalizing values with
  | nil => simp [values?, eq_comm]
  | cons tree rest ih =>
    simp only [values?, Option.bind_eq_some_iff, Option.map_eq_some_iff, List.forall₂_cons_left_iff]
    constructor
    · rintro ⟨value, found, others, foundOthers, rfl⟩
      exact ⟨value, others, found, ih.mp foundOthers, rfl⟩
    · rintro ⟨value, others, found, foundOthers, rfl⟩
      exact ⟨value, found, others, ih.mpr foundOthers, rfl⟩

/-- A tree with a value is a literal without trees below it, or an operation on the values below. -/
theorem value?_eq_some {x : Option α} {token : Token} {children : List TokenTree} {value : α}
    (valued : (node token children).value? x = some value) :
    (token.kind = .literal ∧ children = [] ∧ token.literalValue? x = some value) ∨
      (token.kind = .operator ∨ token.kind = .function) ∧ ∃ operation operands,
        Operation.ofSymbol? token.text = some operation ∧ values? x children = some operands ∧
          operation.applyTo? operands = some value := by
  -- Only three kinds of token can have a value at all.
  cases kind : token.kind with
  | literal =>
    simp only [value?, kind] at valued
    split at valued
    · rename_i alone
      exact .inl ⟨rfl, by simpa using alone, valued⟩
    · cases valued
  | operator | function =>
    simp only [value?, kind, Option.bind_eq_some_iff] at valued
    obtain ⟨operation, known, operands, below, applied⟩ := valued
    exact .inr ⟨by simp, operation, operands, known, below, applied⟩
  | leftParen | rightParen | comma => simp [value?, kind] at valued

/-- The value of a tree below an operation or a function. -/
theorem value?_operation {x : Option α} {token : Token} {children : List TokenTree}
    {operation : Operation} (kind : token.kind = .operator ∨ token.kind = .function)
    (known : Operation.ofSymbol? token.text = some operation) :
    (node token children).value? x = (values? x children).bind operation.applyTo? := by
  -- Both kinds are computed in the same way.
  rcases kind with kind | kind <;> simp [value?, kind, known]

end TokenTree

/-- Operands on top of the stack, the last one first, give way to the result on them. -/
theorem Program.applyOperation_reverse_append {operation : Operation} {operands : List α}
    {result : α} (applied : operation.applyTo? operands = some result) (stack : List α) :
    applyOperation operation (operands.reverse ++ stack) = .ok (result :: stack) := by
  -- An operation has a result only on one operand or on two, whichever it takes.
  match operation, operands with
  | .unary operation, [a] | .binary operation, [a, b] =>
    simp only [Operation.applyTo?, Option.some.injEq] at applied
    subst applied
    rfl

/-- An operation that succeeds has taken its operands from the top of the stack. -/
theorem Program.applyOperation_eq_ok {operation : Operation} {stack next : List α}
    (applied : applyOperation operation stack = .ok next) :
    ∃ operands below result, operands.length = operation.arity ∧
      stack = operands.reverse ++ below ∧ operation.applyTo? operands = some result ∧
        next = result :: below := by
  -- The last operand is on top, so the operands are read off the stack backwards.
  match operation, stack with
  | .unary operation, a :: below =>
    cases applied
    exact ⟨[a], below, _, rfl, rfl, rfl, rfl⟩
  | .binary operation, b :: a :: below =>
    cases applied
    exact ⟨[a, b], below, _, rfl, rfl, rfl, rfl⟩

/-- The instruction of an operator or a function whose text stands for an operation. -/
theorem Token.instruction_operation {token : Token} {operation : Operation}
    (kind : token.kind = .operator ∨ token.kind = .function)
    (known : Operation.ofSymbol? token.text = some operation) :
    token.instruction = .operation operation := by
  rcases kind with kind | kind <;> simp [Token.instruction, kind, known]

/-- A literal with a value pushes that value. -/
theorem Token.step_literal {x : Option α} {token : Token} {value : α} (kind : token.kind = .literal)
    (valued : token.literalValue? x = some value) (stack : List α) :
    Program.step x stack token.instruction = .ok (value :: stack) := by
  -- The variable pushes what is given for it, and any other literal what it writes.
  by_cases named : token.text = variableName
  · simp only [literalValue?, named, if_true] at valued
    simp [Token.instruction, kind, literalInstruction, named, Program.step, valued]
  · simp only [literalValue?, named, if_false, Option.map_eq_some_iff] at valued
    obtain ⟨number, read, rfl⟩ := valued
    simp [Token.instruction, kind, literalInstruction, named, Program.step, read]

namespace TokenTree

mutual

/-- The postorder of a tree with a value pushes that value, whatever else is on the stack. -/
theorem run_postorder {x : Option α} {tree : TokenTree} {value : α}
    (valued : tree.value? x = some value) (stack : List α) (rest : Program) :
    Program.run x stack (.ofTokens tree.postorder ++ rest) =
      Program.run x (value :: stack) rest := by
  -- The trees below an operation are run first, and leave its operands on the stack.
  match tree with
  | node token children =>
    have parts : Program.ofTokens (node token children).postorder ++ rest =
        .ofTokens (postorders children) ++ (token.instruction :: rest) := by
      simp [postorder, Program.ofTokens]
    rw [parts]
    rcases value?_eq_some valued with ⟨kind, rfl, literal⟩ | ⟨kind, operation, operands, known,
      below, applied⟩
    · simp [postorders, Program.ofTokens, Program.run, Token.step_literal kind literal]
    · -- The operands are on the stack when their operation is reached.
      rw [run_postorders below]
      simp [Program.run, Program.step, Token.instruction_operation kind known,
        Program.applyOperation_reverse_append applied]

/-- The postorders of trees with values push these values, one after the other. -/
theorem run_postorders {x : Option α} {trees : List TokenTree} {values : List α}
    (valued : values? x trees = some values) (stack : List α) (rest : Program) :
    Program.run x stack (.ofTokens (postorders trees) ++ rest) =
      Program.run x (values.reverse ++ stack) rest := by
  -- Each tree pushes its value on top of those before it.
  match trees with
  | [] =>
    simp only [values?, Option.some.injEq] at valued
    subst valued
    rfl
  | tree :: others =>
    simp only [values?, Option.bind_eq_some_iff, Option.map_eq_some_iff] at valued
    obtain ⟨value, valuedTree, remaining, valuedOthers, rfl⟩ := valued
    simp only [postorders, Program.ofTokens, List.map_append, List.append_assoc]
    rw [← Program.ofTokens, run_postorder valuedTree, ← Program.ofTokens,
      run_postorders valuedOthers]
    simp

end

end TokenTree

/-- A token that is carried out is a literal with a value, or an operation with enough operands. -/
theorem Token.step_instruction_eq_ok {x : Option α} {token : Token} {stack next : List α}
    (stepped : Program.step x stack token.instruction = .ok next) :
    (token.kind = .literal ∧ ∃ value, token.literalValue? x = some value ∧
      next = value :: stack) ∨
    (token.kind = .operator ∨ token.kind = .function) ∧ ∃ operation operands below result,
      Operation.ofSymbol? token.text = some operation ∧ operands.length = operation.arity ∧
        stack = operands.reverse ++ below ∧ operation.applyTo? operands = some result ∧
          next = result :: below := by
  -- Each kind of token is carried out in its own way, and some are always refused.
  cases kind : token.kind with
  | literal =>
    refine .inl ⟨rfl, ?_⟩
    simp only [instruction, kind, literalInstruction] at stepped
    -- Without a number for the variable, it is refused.
    by_cases named : token.text = variableName
    · simp only [named, if_true, Program.step] at stepped
      cases x with
      | none => cases stepped
      | some value =>
        cases stepped
        exact ⟨value, by simp [literalValue?, named], rfl⟩
    · -- So is what cannot be read.
      cases read : readFloat? token.text with
      | none => simp [named, read, Program.step] at stepped
      | some number =>
        simp only [named, read, if_false, Program.step, Except.ok.injEq] at stepped
        exact ⟨Arithmetic.number number, by simp [literalValue?, named, read], stepped.symm⟩
  | operator | function =>
    refine .inr ⟨by simp, ?_⟩
    cases known : Operation.ofSymbol? token.text with
    | none => simp [instruction, kind, known, Program.step] at stepped
    | some operation =>
      simp only [instruction, kind, known, Program.step] at stepped
      obtain ⟨operands, below, result, count, onTop, applied, left⟩ :=
        Program.applyOperation_eq_ok stepped
      exact ⟨operation, operands, below, result, rfl, count, onTop, applied, left⟩
  | leftParen | rightParen | comma => simp [instruction, kind, Program.step] at stepped

namespace TokenTree

/-- Well-formed trees with the values on a stack. -/
structure Grown (x : Option α) (row : List TokenTree) (stack : List α) : Prop where
  formed : ∀ tree ∈ row, tree.WellFormed x.isSome
  valued : List.Forall₂ (fun tree value => tree.value? x = some value) row stack

/-- A literal with a value is a well-formed tree by itself. -/
theorem WellFormed.ofLiteral {x : Option α} {token : Token} {value : α}
    (kind : token.kind = .literal) (valued : token.literalValue? x = some value) :
    WellFormed x.isSome (node token []) := by
  -- A literal is the variable, which then is given, or a number that can be read.
  by_cases named : token.text = Token.variableName
  · simp only [Token.literalValue?, named, if_true] at valued
    exact .letter kind named (by simp [valued])
  · simp only [Token.literalValue?, named, if_false, Option.map_eq_some_iff] at valued
    obtain ⟨number, read, -⟩ := valued
    exact .numeral kind named (by simp [read])

/-- Carrying out a token on the values of trees plants the token on these trees. -/
theorem Grown.plant {x : Option α} {row : List TokenTree} {stack next : List α} {token : Token}
    (grown : Grown x row stack) (stepped : Program.step x stack token.instruction = .ok next) :
    Grown x (plant row token) next ∧
      postorders (TokenTree.plant row token).reverse = postorders row.reverse ++ [token] := by
  -- What the step takes from the stack, planting takes from the row.
  rcases Token.step_instruction_eq_ok stepped with ⟨kind, value, literal, rfl⟩ |
    ⟨kind, operation, operands, below, result, known, count, rfl, applied, rfl⟩
  · have takes : token.operands = 0 := by simp [Token.operands, kind]
    refine ⟨⟨?_, ?_⟩, ?_⟩
    · simpa [TokenTree.plant, takes] using ⟨.ofLiteral kind literal, grown.formed⟩
    · simpa [TokenTree.plant, takes, value?, kind] using ⟨literal, grown.valued⟩
    · simp [TokenTree.plant, takes, postorders, postorder]
  · have takes : token.operands = operands.reverse.length := by
      rcases kind with kind | kind <;> simp [Token.operands, kind, known, count]
    obtain ⟨formed, valued⟩ := grown
    -- The trees of the operands are the front of the row, as many as the operation takes.
    have onTop := List.forall₂_take token.operands valued
    have remaining := List.forall₂_drop token.operands valued
    rw [takes, List.take_left, ← takes] at onTop
    rw [takes, List.drop_left, ← takes] at remaining
    have children : values? x (row.take token.operands).reverse = some operands := by
      rw [values?_eq_some_iff]
      simpa using List.rel_reverse onTop
    have enough : (row.take token.operands).reverse.length = operation.arity := by
      rw [List.length_reverse, onTop.length_eq, List.length_reverse, count]
    -- The new tree is well formed, has the result as its value, and the token as its last one.
    refine ⟨⟨?_, ?_⟩, ?_⟩
    · intro tree member
      rcases List.mem_cons.mp member with rfl | member
      · refine .operation kind known enough fun child below => formed child ?_
        exact List.mem_of_mem_take (List.mem_reverse.mp below)
      · exact formed tree (List.mem_of_mem_drop member)
    · refine .cons ?_ remaining
      rw [value?_operation kind known, children]
      exact applied
    · have parts : row.reverse =
          (row.drop token.operands).reverse ++ (row.take token.operands).reverse := by
        rw [← List.reverse_append, List.take_append_drop]
      rw [parts]
      simp [TokenTree.plant, postorders, postorder]

/-- Carrying out a row of tokens grows trees whose tokens are those of the row. -/
theorem Grown.run {x : Option α} {tokens : List Token} :
    ∀ {row : List TokenTree} {stack final : List α}, Grown x row stack →
      Program.run x stack (.ofTokens tokens) = .ok final →
      ∃ grown, Grown x grown final ∧
        postorders grown.reverse = postorders row.reverse ++ tokens := by
  -- Each token is planted on the trees of the tokens before it.
  induction tokens with
  | nil =>
    intro row stack final grown ran
    simp only [Program.ofTokens, List.map_nil, Program.run, Except.ok.injEq] at ran
    subst ran
    exact ⟨row, grown, by simp⟩
  | cons token rest ih =>
    intro row stack final grown ran
    simp only [Program.ofTokens, List.map_cons, Program.run] at ran
    cases stepped : Program.step x stack token.instruction with
    | error fault => simp [stepped] at ran
    | ok next =>
      simp only [stepped] at ran
      obtain ⟨planted, tokensPlanted⟩ := grown.plant stepped
      obtain ⟨final, grownFinal, tokensFinal⟩ := ih planted ran
      exact ⟨final, grownFinal, by rw [tokensFinal, tokensPlanted, List.append_assoc]; rfl⟩

/-- The postorder of a tree with a value evaluates to that value. -/
theorem evaluate_postorder {x : Option α} {tree : TokenTree} {value : α}
    (valued : tree.value? x = some value) :
    Program.evaluate x (.ofTokens tree.postorder) = .ok value := by
  have ran := run_postorder valued [] []
  rw [List.append_nil] at ran
  simp [Program.evaluate, ran, Program.run]

/-- Tokens that evaluate to a value are the postorder of a well-formed tree with that value. -/
theorem exists_of_evaluate {x : Option α} {tokens : List Token} {value : α}
    (evaluated : Program.evaluate x (.ofTokens tokens) = .ok value) :
    ∃ tree : TokenTree, tree.WellFormed x.isSome ∧ tree.postorder = tokens ∧
      tree.value? x = some value := by
  -- A run that leaves one operand has grown one tree.
  cases ran : Program.run x [] (.ofTokens tokens) with
  | error fault => simp [Program.evaluate, ran] at evaluated
  | ok final =>
    have empty : Grown x [] [] := ⟨by simp, .nil⟩
    obtain ⟨row, ⟨formed, valued⟩, grown⟩ := empty.run ran
    cases valued with
    | nil => simp [Program.evaluate, ran] at evaluated
    | @cons tree last others below found remaining =>
      cases remaining with
      | cons _ _ => simp [Program.evaluate, ran] at evaluated
      | nil =>
        simp only [Program.evaluate, ran, Except.ok.injEq] at evaluated
        subst evaluated
        exact ⟨tree, formed tree (by simp), by simpa [postorders] using grown, found⟩

/-- A well-formed tree has a value. -/
theorem WellFormed.value? {x : Option α} {tree : TokenTree} (formed : tree.WellFormed x.isSome) :
    ∃ value, tree.value? x = some value := by
  -- The induction is on the tree, where each tree below an operation brings its own value.
  induction formed with
  | letter kind named given =>
    obtain ⟨value, supplied⟩ := Option.isSome_iff_exists.mp given
    exact ⟨value, by simp [TokenTree.value?, kind, Token.literalValue?, named, supplied]⟩
  | numeral kind unnamed readable =>
    obtain ⟨number, read⟩ := Option.isSome_iff_exists.mp readable
    exact ⟨Arithmetic.number number,
      by simp [TokenTree.value?, kind, Token.literalValue?, unnamed, read]⟩
  | @operation token children operation kind known count formed ih =>
    -- The trees below bring as many values as the operation takes.
    have below : ∃ operands, values? x children = some operands := by
      clear count formed
      induction children with
      | nil => exact ⟨[], rfl⟩
      | cons child rest ihRest =>
        obtain ⟨value, found⟩ := ih child (by simp)
        obtain ⟨values, others⟩ := ihRest fun child member => ih child (by simp [member])
        exact ⟨value :: values, by simp [values?, found, others]⟩
    obtain ⟨operands, below⟩ := below
    have enough : operands.length = operation.arity := by
      rw [← (values?_eq_some_iff.mp below).length_eq, count]
    obtain ⟨result, applied⟩ := Operation.applyTo?_of_length enough
    exact ⟨result, by rw [value?_operation kind known, below]; exact applied⟩

end TokenTree

namespace Program

/-- Two kinds of operands that correspond to one another are computed with in the same way. -/
theorem run_map {β : Type} [Arithmetic β] {f : α → β}
    (number : ∀ value, f (Arithmetic.number value) = Arithmetic.number value)
    (unary : ∀ operation a, f (Arithmetic.unary operation a) = Arithmetic.unary operation (f a))
    (binary : ∀ operation a b,
      f (Arithmetic.binary operation a b) = Arithmetic.binary operation (f a) (f b))
    (x : Option α) (stack : List α) (program : Program) :
    run (x.map f) (stack.map f) program = (run x stack program).map (List.map f) := by
  -- Every instruction does the same to both stacks.
  induction program generalizing stack with
  | nil => rfl
  | cons instruction rest ih =>
    have stepped : step (x.map f) (stack.map f) instruction =
        (step x stack instruction).map (List.map f) := by
      cases instruction with
      | number value => simp [step, Except.map, number]
      | «variable» => cases x <;> simp [step, Except.map]
      | operation operation =>
        match operation, stack with
        | .unary operation, [] | .binary operation, [] | .binary operation, [_] => rfl
        | .unary operation, a :: below => simp [step, applyOperation, Except.map, unary]
        | .binary operation, b :: a :: below => simp [step, applyOperation, Except.map, binary]
      | refused fault => rfl
    simp only [run, stepped]
    cases step x stack instruction with
    | error fault => rfl
    | ok next => exact ih next

/-- Two kinds of operands that correspond to one another have corresponding results. -/
theorem evaluate_map {β : Type} [Arithmetic β] {f : α → β}
    (number : ∀ value, f (Arithmetic.number value) = Arithmetic.number value)
    (unary : ∀ operation a, f (Arithmetic.unary operation a) = Arithmetic.unary operation (f a))
    (binary : ∀ operation a b,
      f (Arithmetic.binary operation a b) = Arithmetic.binary operation (f a) (f b))
    (x : Option α) (program : Program) :
    evaluate (x.map f) program = (evaluate x program).map f := by
  -- The last operand is the result in both computations, if there is just one.
  have ran := run_map number unary binary x [] program
  rw [List.map_nil] at ran
  rw [evaluate, evaluate, ran]
  cases run x [] program with
  | error fault => rfl
  | ok final =>
    match final with
    | [] | [_] => rfl
    | _ :: _ :: _ => simp [Except.map]

/-- The value at a single number, as a quantity, is the value at that number. -/
theorem evaluateQuantity_single (x : Option Float) (program : Program) :
    evaluateQuantity (x.map Quantity.single) program = (evaluate x program).map .single := by
  cases x with
  | none => rfl
  | some number =>
    -- A single number is computed with as such, although it could stand for a whole row.
    have same := evaluate_map (f := (Operand.single : Float → Operand 1)) (fun _ => rfl)
      (fun _ _ => rfl) (fun _ _ _ => rfl) (some number) program
    have whole : evaluateQuantity (some (Quantity.single number)) program =
        (evaluate (some (Operand.single number : Operand 1)) program).map
          fun result => ⟨.rectangle [], result.cells⟩ := rfl
    rw [Option.map_some, whole, ← Option.map_some, same]
    cases evaluate (some number) program <;> rfl

end Program

namespace Expression

/-- A text that is read as an expression is split into its tokens, and these are put in order. -/
theorem stages_of_ofText {settings : Settings} {options : ReadingOptions} {text : String}
    {e : Expression} (read : ofText settings options text = .ok e) :
    tokenize settings options text = .ok e.tokens ∧
      Postfix.order (settings.respectsAssociativity options.respectAssociativity) e.tokens =
        .ok e.postfixTokens := by
  -- The two stages are carried out one after the other, and each has to succeed.
  unfold ofText at read
  cases lexed : tokenize settings options text with
  | error failure => simp [lexed] at read
  | ok tokens =>
    simp only [lexed, order] at read
    cases sorted : Postfix.order (settings.respectsAssociativity options.respectAssociativity)
        tokens with
    | error fault => simp [sorted, Except.map] at read
    | ok ordered =>
      simp only [sorted, Except.map, Except.ok.injEq] at read
      subst read
      exact ⟨rfl, sorted⟩

/-- An expression has the values of its program, and only failures are widened. -/
theorem evaluate_eq_ok_iff {e : Expression} {x : Option Float} {value : Float} :
    e.evaluate x = .ok value ↔ Program.evaluate x (.ofTokens e.postfixTokens) = .ok value := by
  unfold evaluate program
  cases Program.evaluate x (.ofTokens e.postfixTokens) <;> simp

/--
Evaluation succeeds exactly on the postorder of a well-formed tree.

There is one such tree at most, its value is the result, and without one the formula is at fault.
-/
theorem evaluate_ok_iff_postorder (e : Expression) (x : Option Float) :
    ((∃ value, e.evaluate x = .ok value) ↔
      ∃ tree : TokenTree, tree.WellFormed x.isSome ∧ tree.postorder = e.postfixTokens) ∧
    (∀ tree : TokenTree, tree.WellFormed x.isSome → tree.postorder = e.postfixTokens →
      (∃ value, tree.value? x = some value ∧ e.evaluate x = .ok value) ∧
        ∀ other : TokenTree, other.WellFormed x.isSome →
          other.postorder = e.postfixTokens → other = tree) ∧
    ((¬∃ tree : TokenTree, tree.WellFormed x.isSome ∧ tree.postorder = e.postfixTokens) →
      ∃ fault : FormulaFault, e.evaluate x = .error (.formula fault)) := by
  -- An expression evaluates as its program does, and only the kind of failure is widened.
  have succeeds : ∀ value, e.evaluate x = .ok value →
      ∃ tree : TokenTree, tree.WellFormed x.isSome ∧ tree.postorder = e.postfixTokens := by
    intro value evaluated
    cases ran : e.program.evaluate x with
    | error fault => simp [evaluate, ran] at evaluated
    | ok result =>
      obtain ⟨tree, formed, order, -⟩ := TokenTree.exists_of_evaluate ran
      exact ⟨tree, formed, order⟩
  have determined : ∀ tree : TokenTree, tree.WellFormed x.isSome →
      tree.postorder = e.postfixTokens →
        ∃ value, tree.value? x = some value ∧ e.evaluate x = .ok value := by
    intro tree formed order
    obtain ⟨value, valued⟩ := formed.value?
    have ran := TokenTree.evaluate_postorder valued
    rw [order] at ran
    exact ⟨value, valued, by simp [evaluate, program, ran]⟩
  refine ⟨⟨fun ⟨value, evaluated⟩ => succeeds value evaluated, ?_⟩, ?_, ?_⟩
  · rintro ⟨tree, formed, order⟩
    obtain ⟨value, -, evaluated⟩ := determined tree formed order
    exact ⟨value, evaluated⟩
  · intro tree formed order
    refine ⟨determined tree formed order, fun other otherFormed otherOrder => ?_⟩
    exact TokenTree.eq_of_postorder_eq otherFormed formed (otherOrder.trans order.symm)
  · -- A failure of the program is a fault of the formula, whatever it is.
    intro none
    cases ran : e.program.evaluate x with
    | error fault => exact ⟨.evaluation fault, by simp [evaluate, ran]⟩
    | ok value => exact absurd (succeeds value (by simp [evaluate, ran])) none

/-- The logarithm of eight to base two, with eight for the variable, has a value. -/
theorem evaluate_logarithm_ok :
    ∃ value, (Expression.mk "log(x,2)" []
      [⟨"x", .literal⟩, ⟨"2", .literal⟩, ⟨"log", .function⟩]).evaluate (some 8) = .ok value := by
  -- The two literals are the operands of the logarithm.
  have formed : TokenTree.WellFormed (some (8 : Float)).isSome
      (.node ⟨"log", .function⟩ [.node ⟨"x", .literal⟩ [], .node ⟨"2", .literal⟩ []]) := by
    refine @TokenTree.WellFormed.operation _ _ _ (.binary .log) (.inr rfl) rfl rfl ?_
    simp only [List.mem_cons, List.not_mem_nil, or_false, forall_eq_or_imp, forall_eq]
    exact ⟨.letter rfl rfl rfl, .numeral rfl (by decide) (by decide)⟩
  obtain ⟨value, -, evaluated⟩ := ((evaluate_ok_iff_postorder (Expression.mk "log(x,2)" []
    [⟨"x", .literal⟩, ⟨"2", .literal⟩, ⟨"log", .function⟩]) (some 8)).2.1 _ formed rfl).1
  exact ⟨value, evaluated⟩

end Expression

end Formula
