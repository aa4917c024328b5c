import Formula.Proofs.Postfix.Evaluation

/-! Evaluation at a row of numbers is evaluation at each of them, where exponents are shared. -/

namespace Formula

/-- Operations on nothing: what is left of a calculation when its operands are forgotten. -/
instance : Arithmetic Unit where
  number _ := ()
  unary _ _ := ()
  binary _ _ _ := ()

namespace Program

/-- Whether a program has a value, and how it fails, does not depend on its operands. -/
theorem evaluate_outcome {α β : Type} [Arithmetic α] [Arithmetic β] (x : Option α) (y : Option β)
    (same : x.isSome = y.isSome) (program : Program) :
    (∃ fault, evaluate x program = .error fault ∧ evaluate y program = .error fault) ∨
      ∃ value other, evaluate x program = .ok value ∧ evaluate y program = .ok other := by
  -- Both calculations are the same once their operands are forgotten.
  have forgotten := evaluate_map (f := fun _ : α => ()) (fun _ => rfl) (fun _ _ => rfl)
    (fun _ _ _ => rfl) x program
  have others := evaluate_map (f := fun _ : β => ()) (fun _ => rfl) (fun _ _ => rfl)
    (fun _ _ _ => rfl) y program
  have supplied : x.map (fun _ => ()) = y.map (fun _ => ()) := by
    cases x <;> cases y <;> first | rfl | cases same
  rw [supplied, others] at forgotten
  cases ran : evaluate x program <;> cases ranOther : evaluate y program <;>
    simp_all [Except.map]

end Program

namespace BinaryOperation

/-- The exponents at which a power with a single exponent is calculated in another way. -/
def isShortcut (exponent : Float) : Bool :=
  exponent == 2.0 || exponent == 0.5 || exponent == -1.0

/-- Beside these exponents, it makes no difference whether the second operand stands alone. -/
theorem applyCell_eq {operation : BinaryOperation} {b : Float}
    (plain : operation = .power → isShortcut b = false) (a : Float) :
    operation.applyCell a b = operation.apply a b := by
  -- Only powers look at what kind of operand their exponent is.
  cases operation with
  | power =>
    obtain ⟨⟨notTwo, notHalf⟩, notInverse⟩ := by
      simpa only [isShortcut, Bool.or_eq_false_iff] using plain rfl
    simp [applyCell, apply, raise, notTwo, notHalf, notInverse]
  | add | sub | mul | div | log => rfl

end BinaryOperation

namespace Operand

variable {n : Nat}

/-- A single operand has the same number in every cell. -/
@[simp] theorem getElem_cells_single (value : Float) (i : Nat) (within : i < n) :
    (single value : Operand n).cells[i] = value := by
  simp [cells]

/-- An operation on one operand acts on every cell. -/
theorem getElem_cells_unary (operation : UnaryOperation) (a : Operand n) (i : Nat)
    (within : i < n) : (unary operation a).cells[i] = operation.apply a.cells[i] := by
  -- Both kinds of operand are mapped, the single one in its only number.
  cases a <;> simp [unary, cells]

/-- An operation on two operands acts on every pair of cells, for exponents that are shared. -/
theorem getElem_cells_binary {operation : BinaryOperation} {a b : Operand n} {i : Nat}
    (within : i < n)
    (plain : operation = .power →
      (∃ value, b = single value) ∨ BinaryOperation.isShortcut b.cells[i] = false) :
    (binary operation a b).cells[i] = operation.apply a.cells[i] b.cells[i] := by
  -- A row on the right is treated cell by cell, and each of its cells as a number beside others.
  cases b with
  | single value => cases a <;> simp [binary, cells]
  | row others =>
    -- A row is no single number, so that only its cell is left to be plain.
    have cellwise : operation = .power → BinaryOperation.isShortcut others[i] = false := by
      intro power
      rcases plain power with ⟨value, alone⟩ | apart
      · cases alone
      · exact apart
    cases a <;> simp [binary, cells, BinaryOperation.applyCell_eq cellwise]

end Operand

/-- The cells of a quantity are those of the operand that it is calculated with. -/
theorem Quantity.cells_operand (q : Quantity Float) : q.operand.cells = q.cells := by
  -- A rectangle without axes has a single cell, and all others are rows.
  obtain ⟨arrangement, cells⟩ := q
  cases arrangement with
  | series labels => rfl
  | rectangle shape =>
    cases shape with
    | cons length axes => rfl
    | nil =>
      ext i within
      have first : i = 0 := Nat.lt_one_iff.mp within
      subst first
      exact Operand.getElem_cells_single _ _ within

namespace TokenTree

/-- The variable is among the tokens of a tree. -/
def mentionsX (tree : TokenTree) : Bool :=
  tree.postorder.any Token.isVariable

/-- A power somewhere in a tree has this exponent. -/
inductive HasExponent : TokenTree → TokenTree → Prop where
  | root {token : Token} {base exponent : TokenTree}
      (power : Operation.ofSymbol? token.text = some (.binary .power)) :
      HasExponent (node token [base, exponent]) exponent
  | within {token : Token} {children : List TokenTree} {child exponent : TokenTree}
      (member : child ∈ children) (inner : HasExponent child exponent) :
      HasExponent (node token children) exponent

/-- The exponents in a tree are those in the trees below its token, and perhaps one of these. -/
theorem hasExponent_node {token : Token} {children : List TokenTree} {exponent : TokenTree} :
    (node token children).HasExponent exponent ↔
      (Operation.ofSymbol? token.text = some (.binary .power) ∧
        ∃ base, children = [base, exponent]) ∨ ∃ child ∈ children, child.HasExponent exponent := by
  -- The two constructors are the two cases.
  constructor
  · intro has
    cases has with
    | root power => exact .inl ⟨power, _, rfl⟩
    | within member inner => exact .inr ⟨_, member, inner⟩
  · rintro (⟨power, base, rfl⟩ | ⟨child, member, inner⟩)
    · exact .root power
    · exact .within member inner

/-- No exponent that mentions the variable has a value with a shortcut at a number. -/
def PlainExponents (tree : TokenTree) (x : Float) : Prop :=
  ∀ exponent value, tree.HasExponent exponent → exponent.mentionsX = true →
    exponent.value? (some x) = some value → BinaryOperation.isShortcut value = false

/-- A tree mentions the variable if one of the trees below its token does. -/
theorem mentionsX_of_mem {token : Token} {children : List TokenTree} {child : TokenTree}
    (member : child ∈ children) (mentions : child.mentionsX = true) :
    (node token children).mentionsX = true := by
  -- The tokens of the tree below are among those of the whole tree.
  obtain ⟨front, back, rfl⟩ := List.append_of_mem member
  simp only [mentionsX] at mentions
  simp [mentionsX, postorder, postorders, mentions]

variable {n : Nat} {x : Operand n}

/-- The value of an operation is that on the one value or the two values below it. -/
theorem value?_operation_cases {α : Type} [Arithmetic α] {x : Option α} {token : Token}
    {children : List TokenTree} {operation : Operation} {result : α}
    (kind : token.kind = .operator ∨ token.kind = .function)
    (known : Operation.ofSymbol? token.text = some operation)
    (count : children.length = operation.arity)
    (valued : (node token children).value? x = some result) :
    (∃ unary child a, operation = .unary unary ∧ children = [child] ∧ child.value? x = some a ∧
      result = Arithmetic.unary unary a) ∨
    ∃ binary left right a b, operation = .binary binary ∧ children = [left, right] ∧
      left.value? x = some a ∧ right.value? x = some b ∧ result = Arithmetic.binary binary a b := by
  -- There are as many trees as the operation takes.
  rw [value?_operation kind known] at valued
  obtain ⟨operands, below, applied⟩ := Option.bind_eq_some_iff.mp valued
  rw [values?_eq_some_iff] at below
  match operation, children, operands, below with
  | .unary unary, [child], [a], .cons found .nil =>
    exact .inl ⟨unary, child, a, rfl, rfl, found, (Option.some.inj applied).symm⟩
  | .binary binary, [left, right], [a, b], .cons foundLeft (.cons foundRight .nil) =>
    exact .inr ⟨binary, left, right, a, b, rfl, rfl, foundLeft, foundRight,
      (Option.some.inj applied).symm⟩

/-- A tree that does not mention the variable has a single number as its value. -/
theorem WellFormed.single {tree : TokenTree} (formed : tree.WellFormed true)
    (unmentioned : tree.mentionsX = false) {result : Operand n}
    (valued : tree.value? (some x) = some result) : ∃ value, result = .single value := by
  -- The induction is on the tree, where operations on single numbers have single results.
  induction formed generalizing result with
  | letter kind named =>
    simp [mentionsX, postorder, postorders, Token.isVariable, kind, named] at unmentioned
  | numeral kind unnamed readable =>
    simp only [TokenTree.value?, kind, List.isEmpty_nil, if_true, Token.literalValue?, unnamed,
      if_false, Option.map_eq_some_iff] at valued
    obtain ⟨number, -, rfl⟩ := valued
    exact ⟨number, rfl⟩
  | @operation token children operation kind known count _ ih =>
    -- What a tree below mentions, the whole tree mentions too.
    have below : ∀ child ∈ children, child.mentionsX = false := by
      intro child member
      rw [← Bool.not_eq_true] at unmentioned ⊢
      exact fun mentions => unmentioned (mentionsX_of_mem member mentions)
    rcases value?_operation_cases kind known count valued with
      ⟨unary, child, a, rfl, rfl, found, rfl⟩ |
      ⟨binary, left, right, a, b, rfl, rfl, foundLeft, foundRight, rfl⟩
    · obtain ⟨value, rfl⟩ := ih child (by simp) (below child (by simp)) found
      exact ⟨unary.apply value, rfl⟩
    · obtain ⟨first, rfl⟩ := ih left (by simp) (below left (by simp)) foundLeft
      obtain ⟨second, rfl⟩ := ih right (by simp) (below right (by simp)) foundRight
      exact ⟨binary.apply first second, rfl⟩

/--
The value of a tree at a row of numbers is, in every cell, the value at the number there.

Only exponents can make a difference: one that mentions the variable must not have a value in the
cell for which a power with a single exponent is calculated in another way.
-/
theorem WellFormed.value?_cell {tree : TokenTree} (formed : tree.WellFormed true) {i : Nat}
    (within : i < n) (plain : tree.PlainExponents x.cells[i]) {result : Operand n}
    (valued : tree.value? (some x) = some result) :
    tree.value? (some x.cells[i]) = some result.cells[i] := by
  -- The induction is on the tree, where every operation acts on each cell by itself.
  induction formed generalizing result with
  | letter kind named =>
    simp only [TokenTree.value?, kind, List.isEmpty_nil, if_true, Token.literalValue?, named,
      Option.some.injEq] at valued ⊢
    rw [valued]
  | numeral kind unnamed readable =>
    simp only [TokenTree.value?, kind, List.isEmpty_nil, if_true, Token.literalValue?, unnamed,
      if_false, Option.map_eq_some_iff] at valued ⊢
    obtain ⟨number, read, rfl⟩ := valued
    exact ⟨number, read, (Operand.getElem_cells_single number i within).symm⟩
  | @operation token children operation kind known count formed ih =>
    -- An exponent in a tree below is one of the whole tree.
    have below : ∀ child ∈ children, child.PlainExponents x.cells[i] :=
      fun child member exponent value inner => plain exponent value (.within member inner)
    rcases value?_operation_cases kind known count valued with
      ⟨unary, child, a, rfl, rfl, found, rfl⟩ |
      ⟨binary, left, right, a, b, rfl, rfl, foundLeft, foundRight, rfl⟩
    · have cell := ih child (by simp) (below child (by simp)) found
      rw [value?_operation kind known]
      simp only [values?, cell, Option.bind_some, Option.map_some, Operation.applyTo?]
      exact congrArg some (Operand.getElem_cells_unary unary a i within).symm
    · have cellLeft := ih left (by simp) (below left (by simp)) foundLeft
      have cellRight := ih right (by simp) (below right (by simp)) foundRight
      -- An exponent is a single number, or has a value in the cell that is not special.
      have exponent : binary = .power →
          (∃ value, b = .single value) ∨ BinaryOperation.isShortcut b.cells[i] = false := by
        rintro rfl
        cases mentions : right.mentionsX with
        | false => exact .inl ((formed right (by simp)).single mentions foundRight)
        | true => exact .inr (plain right _ (.root known) mentions cellRight)
      rw [value?_operation kind known]
      simp only [values?, cellLeft, cellRight, Option.bind_some, Option.map_some,
        Operation.applyTo?]
      exact congrArg some (Operand.getElem_cells_binary within exponent).symm

end TokenTree

namespace Expression

/-- No exponent of a power mentions the variable, so that one exponent is shared by all cells. -/
def SharesExponents (e : Expression) : Prop :=
  ∀ tree exponent : TokenTree, tree.WellFormed true → tree.postorder = e.postfixTokens →
    tree.HasExponent exponent → exponent.mentionsX = false

/-- There is only one tree whose exponents have to be looked at. -/
theorem SharesExponents.ofTree {e : Expression} {tree : TokenTree} (formed : tree.WellFormed true)
    (order : tree.postorder = e.postfixTokens)
    (shared : ∀ exponent, tree.HasExponent exponent → exponent.mentionsX = false) :
    e.SharesExponents := by
  -- The postorder determines the tree.
  intro other exponent otherFormed otherOrder inner
  rw [TokenTree.eq_of_postorder_eq otherFormed formed (otherOrder.trans order.symm)] at inner
  exact shared exponent inner

/--
Evaluation at a quantity is evaluation at each of its numbers.

Either the formula is at fault, in the same way whatever it is evaluated at, or the result is
arranged as the given quantity is, and has the value at each number in its place.
-/
theorem evaluateQuantity_pointwise {e : Expression} (shared : e.SharesExponents)
    (q : Quantity Float) :
    (∃ fault : FormulaFault, e.evaluateQuantity (some q) = .error (.formula fault) ∧
      ∀ v, e.evaluate (some v) = .error (.formula fault)) ∨
    (∀ v, ∃ value, e.evaluate (some v) = .ok value) ∧
      ∃ cells : Vector Float q.arrangement.size,
        e.evaluateQuantity (some q) = .ok ⟨q.arrangement, cells⟩ ∧
          ∀ (i : Nat) (within : i < q.arrangement.size),
            e.evaluate (some q.cells[i]) = .ok cells[i] := by
  -- Whether there is a value is the same for the quantity and for every number.
  have outcome (v : Float) :=
    Program.evaluate_outcome (some q.operand) (some v) rfl e.program
  cases ran : e.program.evaluate (some q.operand) with
  | error fault =>
    refine .inl ⟨.evaluation fault, ?_, fun v => ?_⟩
    · simp [evaluateQuantity, Program.evaluateQuantity, ran, Except.map]
    · have same : e.program.evaluate (some v) = .error fault := by
        simpa [ran, eq_comm] using outcome v
      simp [evaluate, same]
  | ok result =>
    refine .inr ⟨fun v => ?_, result.cells, ?_, fun i within => ?_⟩
    · obtain ⟨value, same⟩ : ∃ value, e.program.evaluate (some v) = .ok value := by
        simpa [ran] using outcome v
      exact ⟨value, by simp [evaluate, same]⟩
    · simp [evaluateQuantity, Program.evaluateQuantity, ran, Except.map]
    · -- The values are those of one tree, at the quantity and at each of its numbers.
      obtain ⟨tree, formed, order, valued⟩ := TokenTree.exists_of_evaluate ran
      -- No exponent mentions the variable at all, so that none can be special.
      have plain : tree.PlainExponents q.operand.cells[i] := by
        intro exponent value inner mentions
        rw [shared tree exponent formed order inner] at mentions
        cases mentions
      have ranAt := TokenTree.evaluate_postorder (formed.value?_cell within plain valued)
      simp only [order, q.cells_operand] at ranAt
      exact evaluate_eq_ok_iff.mpr ranAt

/-- The square of the variable. -/
def square : Expression where
  source := "x^2"
  tokens := [⟨"x", .literal⟩, ⟨"^", .operator⟩, ⟨"2", .literal⟩]
  postfixTokens := [⟨"x", .literal⟩, ⟨"2", .literal⟩, ⟨"^", .operator⟩]

/-- The squares of two numbers in a series are those of each of them. -/
theorem evaluateQuantity_square :
    square.SharesExponents ∧ ∃ cells : Vector Float 2,
      square.evaluateQuantity (some (Quantity.numbered [3, 4])) =
          .ok ⟨.series [.number 0, .number 1], cells⟩ ∧
        square.evaluate (some 3) = .ok cells[0] ∧ square.evaluate (some 4) = .ok cells[1] := by
  -- The only exponent is a numeral.
  have base : TokenTree.WellFormed true (.node ⟨"x", .literal⟩ []) := .letter rfl rfl rfl
  have exponent : TokenTree.WellFormed true (.node ⟨"2", .literal⟩ []) :=
    .numeral rfl (by decide) (by decide)
  have formed : TokenTree.WellFormed true
      (.node ⟨"^", .operator⟩ [.node ⟨"x", .literal⟩ [], .node ⟨"2", .literal⟩ []]) :=
    .pair (.inl rfl) rfl base exponent
  have shared : square.SharesExponents := by
    refine .ofTree formed rfl fun found inner => ?_
    obtain ⟨-, rfl⟩ : _ ∧ TokenTree.node ⟨"2", .literal⟩ [] = found := by
      simpa [TokenTree.hasExponent_node] using inner
    rfl
  refine ⟨shared, ?_⟩
  rcases evaluateQuantity_pointwise shared (Quantity.numbered [3, 4]) with
    ⟨fault, -, refused⟩ | ⟨-, cells, evaluated, each⟩
  · -- The tree has a value at three, so the formula is not at fault.
    obtain ⟨value, valued⟩ := TokenTree.WellFormed.value? (x := some (3 : Float)) formed
    have ran : square.evaluate (some 3) = .ok value :=
      evaluate_eq_ok_iff.mpr (TokenTree.evaluate_postorder valued)
    rw [refused 3] at ran
    cases ran
  · exact ⟨cells, evaluated, each 0 (by decide), each 1 (by decide)⟩

end Expression

end Formula
