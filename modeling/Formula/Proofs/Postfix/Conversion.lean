import Formula.Postfix.Conversion
import Formula.Proofs.Operation
import Formula.Proofs.Postfix.Tree
import Mathlib.Data.List.TakeDrop

/-! Conversion to postfix order turns every rendering of a tree of tokens into its postorder. -/

namespace Formula

namespace Postfix

variable {respecting : Bool}

/-- Some tokens emit others and change the stack, whatever tokens come after them. -/
def Moves (respecting : Bool) (stack tokens emitted next : List Token) : Prop :=
  ∀ rest, orderFrom respecting stack (tokens ++ rest) =
    (orderFrom respecting next rest).map (emitted ++ ·)

/-- No tokens emit nothing and leave the stack as it is. -/
theorem Moves.refl (stack : List Token) : Moves respecting stack [] [] stack := by
  -- Nothing is emitted before what the rest emits.
  intro rest
  rw [List.nil_append]
  cases orderFrom respecting stack rest with
  | error fault => rfl
  | ok ordered => rfl

/-- A token moves the stack as its step says. -/
theorem Moves.step {stack emitted next : List Token} {token : Token}
    (stepped : Postfix.step respecting stack token = .ok (emitted, next)) :
    Moves respecting stack [token] emitted next := by
  -- One step is what a run does first.
  intro rest
  simp [orderFrom, stepped]

/-- Tokens after one another emit what each of them does. -/
theorem Moves.trans {stack tokens emitted middle others further next : List Token}
    (first : Moves respecting stack tokens emitted middle)
    (second : Moves respecting middle others further next) :
    Moves respecting stack (tokens ++ others) (emitted ++ further) next := by
  -- What comes after the second row also comes after the first one.
  intro rest
  rw [List.append_assoc, first, second]
  cases orderFrom respecting next rest with
  | error fault => rfl
  | ok ordered => simp [Except.map]

/-- A literal is emitted at once. -/
theorem Moves.literal {token : Token} (kind : token.kind = .literal) (stack : List Token) :
    Moves respecting stack [token] [token] stack :=
  -- A literal neither looks at the stack nor changes it.
  .step (by simp [Postfix.step, kind])

/-- An opening parenthesis waits. -/
theorem Moves.leftParen {token : Token} (kind : token.kind = .leftParen) (stack : List Token) :
    Moves respecting stack [token] [] (token :: stack) :=
  -- Nothing is emitted before the parenthesis is closed.
  .step (by simp [Postfix.step, kind])

/-- A function waits. -/
theorem Moves.function {token : Token} (kind : token.kind = .function) (stack : List Token) :
    Moves respecting stack [token] [] (token :: stack) :=
  -- A function waits for the parenthesis that closes its arguments.
  .step (by simp [Postfix.step, kind])

/-- An operator emits those on top of the stack that yield to it. -/
theorem Moves.operator {token : Token} (kind : token.kind = .operator)
    {waiting stack : List Token} (yielding : ∀ top ∈ waiting, yields respecting token top = true)
    (staying : ∀ top, stack.head? = some top → yields respecting token top = false) :
    Moves respecting (waiting ++ stack) [token] waiting (token :: stack) := by
  -- The operators that yield are exactly those above the stack that stays.
  have split : (waiting ++ stack).span (yields respecting token) = (waiting, stack) := by
    rw [List.span_eq_takeWhile_dropWhile, List.takeWhile_append_of_pos yielding,
      List.dropWhile_append_of_pos yielding]
    cases stack with
    | nil => simp
    | cons top below => simp [staying top rfl]
  exact .step (by simp only [Postfix.step, kind, split])

/-- What waits above an opening parenthesis is split off from it. -/
theorem splitAtParen_append {waiting : List Token}
    (inside : ∀ top ∈ waiting, top.kind ≠ .leftParen) {opening : Token}
    (kind : opening.kind = .leftParen) (stack : List Token) :
    splitAtParen (waiting ++ opening :: stack) = (waiting, opening :: stack) := by
  -- None of what waits is another parenthesis, so all of it is passed over.
  have above : ∀ top ∈ waiting, (top.kind != .leftParen) = true := by
    intro top member
    simpa using inside top member
  rw [splitAtParen, List.span_eq_takeWhile_dropWhile, List.takeWhile_append_of_pos above,
    List.dropWhile_append_of_pos above]
  simp [kind]

/-- A comma emits what waits above an opening parenthesis. -/
theorem Moves.comma {token : Token} (kind : token.kind = .comma) {waiting : List Token}
    (inside : ∀ top ∈ waiting, top.kind ≠ .leftParen) {opening : Token}
    (opens : opening.kind = .leftParen) (stack : List Token) :
    Moves respecting (waiting ++ opening :: stack) [token] waiting (opening :: stack) :=
  -- The split stops at the parenthesis, which stays.
  .step (by simp [Postfix.step, kind, splitAtParen_append inside opens])

/-- A closing parenthesis emits what waits above the opening one, and a function below it. -/
theorem Moves.rightParen {token : Token} (kind : token.kind = .rightParen) {waiting : List Token}
    (inside : ∀ top ∈ waiting, top.kind ≠ .leftParen) {opening : Token}
    (opens : opening.kind = .leftParen) {stack call below : List Token}
    (closed : closeCall stack = (call, below)) :
    Moves respecting (waiting ++ opening :: stack) [token] (waiting ++ call) below :=
  -- The parenthesis itself is dropped, and what lies right below it decides.
  .step (by simp [Postfix.step, kind, splitAtParen_append inside opens, closed])

/-- An operator groups from the right if the table says so and associativity is respected. -/
def groupsRight (respecting : Bool) (token : Token) : Bool :=
  respecting && Operation.associativityOf token.text == .right

/-- How strongly the operators beside an operator on its left have to bind. -/
def leftBound (respecting : Bool) (token : Token) : Nat :=
  if groupsRight respecting token then Operation.precedenceOf token.text + 1
  else Operation.precedenceOf token.text

/-- How strongly the operators beside an operator on its right have to bind. -/
def rightBound (respecting : Bool) (token : Token) : Nat :=
  if groupsRight respecting token then Operation.precedenceOf token.text
  else Operation.precedenceOf token.text + 1

/-- The operators beside an operator on its left bind at least as strongly as itself. -/
theorem le_leftBound (respecting : Bool) (token : Token) :
    Operation.precedenceOf token.text ≤ leftBound respecting token := by
  -- The bound is the precedence itself, or one more.
  unfold leftBound
  split <;> omega

/-- The operators beside an operator on its right bind at least as strongly as itself. -/
theorem le_rightBound (respecting : Bool) (token : Token) :
    Operation.precedenceOf token.text ≤ rightBound respecting token := by
  -- The bound is the precedence itself, or one more.
  unfold rightBound
  split <;> omega

/-- A waiting operator yields to an incoming one exactly when it binds as strongly as its left. -/
theorem yields_iff {incoming top : Token} (kind : top.kind = .operator) :
    yields respecting incoming top = true ↔
      leftBound respecting incoming ≤ Operation.precedenceOf top.text := by
  -- Being stronger than an operator and binding as strongly as the next level are the same.
  cases groups : groupsRight respecting incoming with
  | true =>
    unfold groupsRight at groups
    simp only [yields, kind, groups, leftBound, groupsRight, if_true, BEq.rfl, Bool.true_and,
      decide_eq_true_eq]
    omega
  | false =>
    unfold groupsRight at groups
    simp [yields, kind, groups, leftBound, groupsRight]

/-- The operators that bind as strongly as one that groups from the right do so themselves. -/
theorem groupsRight_of_le {token other : Token} (groups : groupsRight respecting token = true)
    (le : Operation.precedenceOf token.text ≤ Operation.precedenceOf other.text) :
    groupsRight respecting other = true := by
  -- The operators that group from the right are the strongest ones.
  simp only [groupsRight, Bool.and_eq_true, beq_iff_eq,
    Operation.associativityOf_eq_right_iff] at groups ⊢
  exact ⟨groups.1, Nat.le_trans groups.2 le⟩

/-- An operator does not yield to those that bind as strongly as its right operand has to. -/
theorem yields_rightBound {incoming top : Token}
    (le : rightBound respecting top ≤ Operation.precedenceOf incoming.text) :
    yields respecting incoming top = false := by
  -- An operator that groups from the right is met only by others that do, or stronger ones.
  cases kind : top.kind with
  | operator =>
    rw [Bool.eq_false_iff, ne_eq, yields_iff kind, Nat.not_le]
    cases groups : groupsRight respecting top with
    | true =>
      simp only [rightBound, groups, if_true] at le
      simp only [leftBound, groupsRight_of_le groups le, if_true]
      omega
    | false =>
      simp only [rightBound, groups, Bool.false_eq_true, if_false] at le
      unfold leftBound
      split <;> omega
  | literal | leftParen | rightParen | function | comma => simp [yields, kind]

/-- No operator that binds as strongly as required makes the top of the stack yield. -/
def Ready (respecting : Bool) (least : Nat) (stack : List Token) : Prop :=
  ∀ top, stack.head? = some top → top.kind ≠ .function ∧ ∀ incoming : Token,
    least ≤ Operation.precedenceOf incoming.text → yields respecting incoming top = false

/-- A stack that is ready for some operators is ready for stronger ones. -/
theorem Ready.mono {least greater : Nat} (le : least ≤ greater) {stack : List Token}
    (ready : Ready respecting least stack) : Ready respecting greater stack := by
  -- Stronger operators are among the strong ones.
  intro top first
  obtain ⟨noFunction, staying⟩ := ready top first
  exact ⟨noFunction, fun incoming strong => staying incoming (Nat.le_trans le strong)⟩

/-- Above an opening parenthesis the stack is ready for all operators. -/
theorem Ready.leftParen {token : Token} (kind : token.kind = .leftParen) (least : Nat)
    (stack : List Token) : Ready respecting least (token :: stack) := by
  -- A parenthesis yields to no operator.
  intro top first
  cases first
  exact ⟨by simp [kind], fun incoming _ => by simp [yields, kind]⟩

/-- Above an operator the stack is ready for what its right operand may hold. -/
theorem Ready.operator {token : Token} (kind : token.kind = .operator) (stack : List Token) :
    Ready respecting (rightBound respecting token) (token :: stack) := by
  -- Whatever its right operand holds binds too strongly for the operator to yield.
  intro top first
  cases first
  exact ⟨by simp [kind], fun incoming strong => yields_rightBound strong⟩

/-- An argument after the first one of a call: its tree, its tokens, and the comma before it. -/
structure Argument where
  comma : Token
  tree : TokenTree
  tokens : List Token

/-- Tokens that write a tree, with no operator outside parentheses that binds less than required. -/
inductive Rendering (respecting : Bool) : Nat → TokenTree → List Token → Prop where
  | leaf {least : Nat} {token : Token} (kind : token.kind = .literal) :
      Rendering respecting least (.node token []) [token]
  | group {least : Nat} {opening closing : Token} {tree : TokenTree} {tokens : List Token}
      (opens : opening.kind = .leftParen) (closes : closing.kind = .rightParen)
      (inner : Rendering respecting 0 tree tokens) :
      Rendering respecting least tree (opening :: (tokens ++ [closing]))
  | sign {least : Nat} {token : Token} {operand : TokenTree} {tokens : List Token}
      (kind : token.kind = .operator) (strong : least ≤ Operation.precedenceOf token.text)
      (inner : Rendering respecting (rightBound respecting token) operand tokens) :
      Rendering respecting least (.node token [operand]) (token :: tokens)
  | binary {least : Nat} {token : Token} {left right : TokenTree} {tokens others : List Token}
      (kind : token.kind = .operator) (strong : least ≤ Operation.precedenceOf token.text)
      (before : Rendering respecting (leftBound respecting token) left tokens)
      (after : Rendering respecting (rightBound respecting token) right others) :
      Rendering respecting least (.node token [left, right]) (tokens ++ token :: others)
  | bare {least : Nat} {token opening closing : Token} (kind : token.kind = .function)
      (opens : opening.kind = .leftParen) (closes : closing.kind = .rightParen) :
      Rendering respecting least (.node token []) [token, opening, closing]
  | call {least : Nat} {token opening closing : Token} {first : TokenTree} {tokens : List Token}
      {others : List Argument} (kind : token.kind = .function)
      (opens : opening.kind = .leftParen) (closes : closing.kind = .rightParen)
      (commas : ∀ argument ∈ others, argument.comma.kind = .comma)
      (inner : Rendering respecting 0 first tokens)
      (further : ∀ argument ∈ others, Rendering respecting 0 argument.tree argument.tokens) :
      Rendering respecting least (.node token (first :: others.map Argument.tree))
        (token :: opening ::
          (tokens ++ others.flatMap (fun argument => argument.comma :: argument.tokens) ++
            [closing]))

/-- A rendering with strong operators is one with weaker operators allowed. -/
theorem Rendering.mono {least greater : Nat} (le : least ≤ greater) {tree : TokenTree}
    {tokens : List Token} (rendered : Rendering respecting greater tree tokens) :
    Rendering respecting least tree tokens := by
  -- Only the outermost operator, if there is one, is measured.
  cases rendered with
  | leaf kind => exact .leaf kind
  | group opens closes inner => exact .group opens closes inner
  | sign kind strong inner => exact .sign kind (Nat.le_trans le strong) inner
  | binary kind strong before after => exact .binary kind (Nat.le_trans le strong) before after
  | bare kind opens closes => exact .bare kind opens closes
  | call kind opens closes commas inner further =>
    exact .call kind opens closes commas inner further

/-- A call of a function on one argument is written without commas. -/
theorem Rendering.callOne {least : Nat} {token opening closing : Token} {argument : TokenTree}
    {tokens : List Token} (kind : token.kind = .function) (opens : opening.kind = .leftParen)
    (closes : closing.kind = .rightParen) (inner : Rendering respecting 0 argument tokens) :
    Rendering respecting least (.node token [argument])
      (token :: opening :: (tokens ++ [closing])) := by
  -- There are no arguments after the first one.
  have none : ∀ other ∈ ([] : List Argument), other.comma.kind = .comma ∧
      Rendering respecting 0 other.tree other.tokens := by simp
  have call : Rendering respecting least _ _ := .call kind opens closes
    (fun other member => (none other member).1) inner fun other member => (none other member).2
  simpa using call

/-- A call of a function on two arguments is written with a comma between them. -/
theorem Rendering.callTwo {least : Nat} {token opening comma closing : Token}
    {first second : TokenTree} {tokens others : List Token} (kind : token.kind = .function)
    (opens : opening.kind = .leftParen) (separates : comma.kind = .comma)
    (closes : closing.kind = .rightParen) (inner : Rendering respecting 0 first tokens)
    (further : Rendering respecting 0 second others) :
    Rendering respecting least (.node token [first, second])
      (token :: opening :: (tokens ++ comma :: (others ++ [closing]))) := by
  -- There is one argument after the first one, with its comma.
  have one : ∀ other ∈ [Argument.mk comma second others], other.comma.kind = .comma ∧
      Rendering respecting 0 other.tree other.tokens := by simp [separates, further]
  have call : Rendering respecting least _ _ := .call kind opens closes
    (fun other member => (one other member).1) inner fun other member => (one other member).2
  simpa using call

/-- Operators that bind as strongly as required. -/
def Strong (least : Nat) (operators : List Token) : Prop :=
  ∀ token ∈ operators, token.kind = .operator ∧ least ≤ Operation.precedenceOf token.text

/-- No operator is an opening parenthesis. -/
theorem Strong.inside {least : Nat} {waiting : List Token} (operators : Strong least waiting) :
    ∀ top ∈ waiting, top.kind ≠ .leftParen := by
  -- Everything that waits is an operator.
  intro top member
  rw [(operators top member).1]
  nofun

/-- An operator below those of its right operand is one more operator. -/
theorem Strong.concat {least : Nat} {token : Token} {waiting : List Token}
    (operators : Strong (rightBound respecting token) waiting) (kind : token.kind = .operator)
    (strong : least ≤ Operation.precedenceOf token.text) : Strong least (waiting ++ [token]) := by
  -- The operand's own operators bind at least as strongly as the operator below them.
  intro top member
  rcases List.mem_append.mp member with above | own
  · obtain ⟨operator, bound⟩ := operators top above
    have own := le_rightBound respecting token
    exact ⟨operator, by omega⟩
  · rw [List.mem_singleton.mp own]
    exact ⟨kind, strong⟩

/-- Tokens emit all but some operators of a postorder, which are left to wait on the stack. -/
def Settles (respecting : Bool) (least : Nat) (tokens ordered : List Token) : Prop :=
  ∀ stack, Ready respecting least stack → ∃ emitted waiting, emitted ++ waiting = ordered ∧
    Strong least waiting ∧ Moves respecting stack tokens emitted (waiting ++ stack)

/-- A literal settles at once. -/
theorem Settles.leaf {least : Nat} {token : Token} (kind : token.kind = .literal) :
    Settles respecting least [token] [token] := by
  -- Nothing is left to wait.
  intro stack _
  exact ⟨[token], [], rfl, nofun, .literal kind stack⟩

/-- Parentheses settle all that is within them. -/
theorem Settles.group {least : Nat} {opening closing : Token} {tokens ordered : List Token}
    (opens : opening.kind = .leftParen) (closes : closing.kind = .rightParen)
    (inner : Settles respecting 0 tokens ordered) :
    Settles respecting least (opening :: (tokens ++ [closing])) ordered := by
  -- All that waits within the parentheses is emitted when they are closed.
  intro stack ready
  obtain ⟨emitted, waiting, rfl, operators, moves⟩ :=
    inner (opening :: stack) (.leftParen opens 0 stack)
  -- No function waits below the parenthesis, so nothing but the operators above it is emitted.
  have closed : closeCall stack = ([], stack) := by
    cases stack with
    | nil => rfl
    | cons top below => simp [closeCall, (ready top rfl).1]
  have close : Moves respecting (waiting ++ opening :: stack) [closing] (waiting ++ []) stack :=
    .rightParen closes operators.inside opens closed
  refine ⟨emitted ++ waiting, [], by simp, nofun, ?_⟩
  simpa using ((Moves.leftParen opens stack).trans moves).trans close

/-- A prefix operator waits until its operand is settled. -/
theorem Settles.sign {least : Nat} {token : Token} {tokens ordered : List Token}
    (kind : token.kind = .operator) (strong : least ≤ Operation.precedenceOf token.text)
    (inner : Settles respecting (rightBound respecting token) tokens ordered) :
    Settles respecting least (token :: tokens) (ordered ++ [token]) := by
  -- The operator is pushed on a stack that it does not disturb.
  intro stack ready
  have push : Moves respecting ([] ++ stack) [token] [] (token :: stack) :=
    .operator kind nofun fun top first => (ready top first).2 token strong
  obtain ⟨emitted, waiting, rfl, operators, moves⟩ := inner (token :: stack) (.operator kind stack)
  refine ⟨emitted, waiting ++ [token], by simp, operators.concat kind strong, ?_⟩
  simpa using push.trans moves

/-- An operator emits what waits of its left operand, and itself waits for its right one. -/
theorem Settles.binary {least : Nat} {token : Token} {tokens others ordered further : List Token}
    (kind : token.kind = .operator) (strong : least ≤ Operation.precedenceOf token.text)
    (before : Settles respecting (leftBound respecting token) tokens ordered)
    (after : Settles respecting (rightBound respecting token) others further) :
    Settles respecting least (tokens ++ token :: others) (ordered ++ further ++ [token]) := by
  -- The operator takes the place of those of its left operand that still wait.
  intro stack ready
  have leftReady := ready.mono (Nat.le_trans strong (le_leftBound respecting token))
  obtain ⟨emitted, waiting, rfl, operators, moves⟩ := before stack leftReady
  -- All that waits of the left operand binds strongly enough to yield.
  have push : Moves respecting (waiting ++ stack) [token] waiting (token :: stack) := by
    refine .operator kind (fun top member => ?_) fun top first => (ready top first).2 token strong
    obtain ⟨operator, bound⟩ := operators top member
    exact (yields_iff operator).mpr bound
  -- From here on the right operand is that of a prefix operator.
  obtain ⟨emittedAfter, waitingAfter, rfl, operatorsAfter, movesAfter⟩ :=
    after (token :: stack) (.operator kind stack)
  refine ⟨emitted ++ waiting ++ emittedAfter, waitingAfter ++ [token], by simp,
    operatorsAfter.concat kind strong, ?_⟩
  simpa using (moves.trans push).trans movesAfter

/-- A call without arguments emits its function. -/
theorem Settles.bare {least : Nat} {token opening closing : Token} (kind : token.kind = .function)
    (opens : opening.kind = .leftParen) (closes : closing.kind = .rightParen) :
    Settles respecting least [token, opening, closing] [token] := by
  -- The parenthesis is closed right above the function.
  intro stack _
  have closed : closeCall (token :: stack) = ([token], stack) := by simp [closeCall, kind]
  have close : Moves respecting ([] ++ opening :: token :: stack) [closing] ([] ++ [token]) stack :=
    .rightParen closes (by simp) opens closed
  exact ⟨[token], [], rfl, nofun,
    ((Moves.function kind stack).trans (.leftParen opens (token :: stack))).trans close⟩

/-- Each comma emits what waits of the argument before it. -/
theorem moves_arguments {opening : Token} (opens : opening.kind = .leftParen) (stack : List Token)
    {others : List Argument} (commas : ∀ argument ∈ others, argument.comma.kind = .comma)
    (further : ∀ argument ∈ others,
      Settles respecting 0 argument.tokens argument.tree.postorder) :
    ∀ waiting, Strong 0 waiting → ∃ emitted later,
      emitted ++ later = waiting ++ TokenTree.postorders (others.map Argument.tree) ∧
        Strong 0 later ∧ Moves respecting (waiting ++ opening :: stack)
          (others.flatMap fun argument => argument.comma :: argument.tokens) emitted
            (later ++ opening :: stack) := by
  -- What waits of one argument is carried over to the comma before the next one.
  induction others with
  | nil =>
    intro waiting operators
    exact ⟨[], waiting, by simp [TokenTree.postorders], operators, .refl _⟩
  | cons argument others ih =>
    intro waiting operators
    have comma : Moves respecting (waiting ++ opening :: stack) [argument.comma] waiting
        (opening :: stack) :=
      .comma (commas argument (by simp)) operators.inside opens stack
    -- After the comma, the next argument starts right above the parenthesis.
    obtain ⟨emitted, rest, ordered, restOperators, moves⟩ :=
      further argument (by simp) (opening :: stack) (.leftParen opens 0 stack)
    obtain ⟨emittedLater, later, orderedLater, laterOperators, movesLater⟩ :=
      ih (fun argument member => commas argument (by simp [member]))
        (fun argument member => further argument (by simp [member])) rest restOperators
    refine ⟨waiting ++ emitted ++ emittedLater, later, ?_, laterOperators, ?_⟩
    · rw [List.map_cons, TokenTree.postorders, ← ordered, List.append_assoc, orderedLater]
      simp
    · simpa using (comma.trans moves).trans movesLater

/-- A call emits its arguments one after the other, and then its function. -/
theorem Settles.call {least : Nat} {token opening closing : Token} {tokens ordered : List Token}
    {others : List Argument} (kind : token.kind = .function) (opens : opening.kind = .leftParen)
    (closes : closing.kind = .rightParen)
    (commas : ∀ argument ∈ others, argument.comma.kind = .comma)
    (inner : Settles respecting 0 tokens ordered)
    (further : ∀ argument ∈ others,
      Settles respecting 0 argument.tokens argument.tree.postorder) :
    Settles respecting least
      (token :: opening :: (tokens ++
        others.flatMap (fun argument => argument.comma :: argument.tokens) ++ [closing]))
      (ordered ++ TokenTree.postorders (others.map Argument.tree) ++ [token]) := by
  -- The first argument leaves operators waiting for the first comma, or for the end.
  intro stack ready
  obtain ⟨emitted, waiting, rfl, operators, moves⟩ :=
    inner (opening :: token :: stack) (.leftParen opens 0 (token :: stack))
  obtain ⟨emittedLater, later, orderedLater, laterOperators, movesLater⟩ :=
    moves_arguments opens (token :: stack) commas further waiting operators
  have closed : closeCall (token :: stack) = ([token], stack) := by simp [closeCall, kind]
  have close : Moves respecting (later ++ opening :: token :: stack) [closing]
      (later ++ [token]) stack :=
    .rightParen closes laterOperators.inside opens closed
  -- The function, the parenthesis and the arguments move the stack one after the other.
  have whole := ((((Moves.function kind stack).trans (.leftParen opens (token :: stack))).trans
    moves).trans movesLater).trans close
  refine ⟨emitted ++ emittedLater ++ later ++ [token], [], ?_, nofun, ?_⟩
  · rw [List.append_assoc emitted, orderedLater]
    simp
  · simpa using whole

/-- Every rendering of a tree settles its postorder. -/
theorem Rendering.settles {least : Nat} {tree : TokenTree} {tokens : List Token}
    (rendered : Rendering respecting least tree tokens) :
    Settles respecting least tokens tree.postorder := by
  -- The induction is on the rendering, with one lemma for each way to write a tree.
  induction rendered with
  | leaf kind => exact .leaf kind
  | group opens closes _ ih => exact .group opens closes ih
  | sign kind strong _ ih =>
    simpa [TokenTree.postorder, TokenTree.postorders] using Settles.sign kind strong ih
  | binary kind strong _ _ ihBefore ihAfter =>
    simpa [TokenTree.postorder, TokenTree.postorders] using
      Settles.binary kind strong ihBefore ihAfter
  | bare kind opens closes => exact .bare kind opens closes
  | call kind opens closes commas _ _ ih ihFurther =>
    simpa [TokenTree.postorder, TokenTree.postorders] using
      Settles.call kind opens closes commas ih ihFurther

/-- Tokens that leave no opening parenthesis waiting emit what still waits at the end. -/
theorem Moves.order {tokens emitted waiting : List Token}
    (moves : Moves respecting [] tokens emitted waiting)
    (inside : ∀ top ∈ waiting, top.kind ≠ .leftParen) :
    Postfix.order respecting tokens = .ok (emitted ++ waiting) := by
  -- What waits is emitted in the order of the stack.
  have finished : finish waiting = .ok waiting := by
    have noParen : (waiting.any fun token => token.kind == .leftParen) = false := by
      rw [List.any_eq_false]
      intro token member
      simp [inside token member]
    simp [finish, noParen]
  have ran := moves []
  rw [List.append_nil, orderFrom, finished] at ran
  rw [Postfix.order, ran]
  rfl

/-- Every rendering of a tree is converted to its postorder. -/
theorem order_rendering {tree : TokenTree} {tokens : List Token}
    (rendered : Rendering respecting 0 tree tokens) :
    order respecting tokens = .ok tree.postorder := by
  -- At the end, only operators still wait.
  obtain ⟨emitted, waiting, ordered, operators, moves⟩ := rendered.settles [] nofun
  rw [List.append_nil] at moves
  rw [← ordered]
  exact moves.order operators.inside

end Postfix

end Formula
