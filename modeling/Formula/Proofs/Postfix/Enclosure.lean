import Formula.Proofs.Postfix.Conservation
import Formula.Proofs.Postfix.Conversion

/-! Tokens that have a postfix order by themselves have the same one between parentheses. -/

namespace Formula.Postfix

variable {respecting : Bool}

/-- The front of a row is split off alike when the row is continued with what stops the split. -/
theorem span_append_cons {α : Type} {p : α → Bool} {stop : α} (stops : p stop = false)
    (row rest : List α) :
    (row ++ stop :: rest).span p = ((row.span p).1, (row.span p).2 ++ stop :: rest) := by
  -- The split stops within the row, or else at what comes right after it.
  simp only [List.span_eq_takeWhile_dropWhile]
  induction row with
  | nil => simp [stops]
  | cons head tail ih => cases found : p head <;> simp_all

/-- An opening parenthesis is no function that waits for its arguments. -/
theorem closeCall_append {opening : Token} (opens : opening.kind = .leftParen)
    (stack below : List Token) :
    closeCall (stack ++ opening :: below) =
      ((closeCall stack).1, (closeCall stack).2 ++ opening :: below) := by
  -- Only the top of the stack is looked at, which is the parenthesis where nothing is above it.
  cases stack with
  | nil => simp [closeCall, opens]
  | cons top rest => cases kind : top.kind <;> simp [closeCall, kind]

/-- A token that is accepted does the same above an opening parenthesis, whatever waits below. -/
theorem step_above {opening : Token} (opens : opening.kind = .leftParen) (below : List Token)
    {stack emitted next : List Token} {token : Token}
    (stepped : step respecting stack token = .ok (emitted, next)) :
    step respecting (stack ++ opening :: below) token =
      .ok (emitted, next ++ opening :: below) := by
  -- Neither an operator nor a split at a parenthesis looks further down than the nearest one.
  unfold step at stepped ⊢
  cases kind : token.kind with
  | literal | leftParen | function =>
    simp only [kind] at stepped ⊢
    cases stepped
    rfl
  | operator =>
    -- A parenthesis yields to no operator, so that the walk stops there at the latest.
    have stops : yields respecting token opening = false := by simp [yields, opens]
    simp only [kind, span_append_cons stops] at stepped ⊢
    cases stepped
    rfl
  | rightParen | comma =>
    simp only [kind] at stepped ⊢
    rcases splitAtParen_cases stack with none | ⟨above, inner, rest, found, rfl, inside, innerOpens⟩
    · simp [none] at stepped
    · rw [List.append_assoc, List.cons_append, splitAtParen_append inside innerOpens]
      simp only [found, closeCall_append opens] at stepped ⊢
      cases stepped
      rfl

/-- Tokens that have a postfix order move alike above an opening parenthesis. -/
theorem exists_moves_above {opening : Token} (opens : opening.kind = .leftParen)
    (below : List Token) {tokens : List Token} :
    ∀ {stack ordered : List Token}, orderFrom respecting stack tokens = .ok ordered →
      ∃ emitted waiting, emitted ++ waiting = ordered ∧
        (∀ top ∈ waiting, top.kind ≠ .leftParen) ∧
          Moves respecting (stack ++ opening :: below) tokens emitted
            (waiting ++ opening :: below) := by
  -- The induction is on the tokens; what would be emitted at their end waits instead.
  induction tokens with
  | nil =>
    intro stack ordered ran
    -- A successful end emits the stack, on which no parenthesis is left.
    obtain ⟨rfl, none⟩ := finish_eq_ok ran
    refine ⟨[], ordered, rfl, fun top member opened => ?_, .refl _⟩
    exact List.countP_eq_zero.mp none top member (by simp [opened])
  | cons token rest ih =>
    intro stack ordered ran
    cases stepped : step respecting stack token with
    | error fault => simp [orderFrom, stepped] at ran
    | ok result =>
      obtain ⟨emitted, next⟩ := result
      obtain ⟨later, ranLater, rfl⟩ := orderFrom_of_step stepped ran
      obtain ⟨emittedLater, waiting, rfl, inside, moves⟩ := ih ranLater
      refine ⟨emitted ++ emittedLater, waiting, List.append_assoc .., inside, ?_⟩
      exact (Moves.step (step_above opens below stepped)).trans moves

variable {tokens ordered : List Token}

/-- Up to the closing parenthesis, tokens emit their own postfix order, and then a function. -/
theorem Moves.closed (ran : Postfix.order respecting tokens = .ok ordered)
    {opening closing : Token} (opens : opening.kind = .leftParen)
    (closes : closing.kind = .rightParen) {stack call below : List Token}
    (called : closeCall stack = (call, below)) :
    Moves respecting (opening :: stack) (tokens ++ [closing]) (ordered ++ call) below := by
  -- What waits at the end of the tokens is emitted by the closing parenthesis.
  obtain ⟨emitted, waiting, rfl, inside, moves⟩ := exists_moves_above opens stack ran
  rw [List.append_assoc]
  exact moves.trans (.rightParen closes inside opens called)

/-- Between parentheses, tokens emit their own postfix order, and then a function before them. -/
theorem Moves.enclosed (ran : Postfix.order respecting tokens = .ok ordered)
    {opening closing : Token} (opens : opening.kind = .leftParen)
    (closes : closing.kind = .rightParen) {stack call below : List Token}
    (called : closeCall stack = (call, below)) :
    Moves respecting stack (opening :: (tokens ++ [closing])) (ordered ++ call) below :=
  -- The parenthesis is pushed, and everything up to its match moves above it.
  (Moves.leftParen opens stack).trans (.closed ran opens closes called)

/-- Up to a comma, tokens emit their own postfix order, and leave the parenthesis open. -/
theorem Moves.separated (ran : Postfix.order respecting tokens = .ok ordered)
    {opening comma : Token} (opens : opening.kind = .leftParen) (separates : comma.kind = .comma)
    (stack : List Token) :
    Moves respecting (opening :: stack) (tokens ++ [comma]) ordered (opening :: stack) := by
  -- What waits at the end of the tokens is emitted by the comma.
  obtain ⟨emitted, waiting, rfl, inside, moves⟩ := exists_moves_above opens stack ran
  exact moves.trans (.comma separates inside opens stack)

end Formula.Postfix
