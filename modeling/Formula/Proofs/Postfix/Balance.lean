import Formula.Proofs.Postfix.Conservation

/-! Conversion to postfix order fails exactly at what stands outside of all parentheses. -/

namespace Formula

namespace Postfix

variable {respecting : Bool} {opened : Int} {tokens rest : List Token} {token other : Token}
  {place : Nat}

/-- How many more parentheses a row of tokens opens than it closes. -/
def depth : List Token → Int
  | [] => 0
  | token :: rest => token.kind.deepening + depth rest

/-- A row without tokens opens nothing. -/
@[simp] theorem depth_nil : depth [] = 0 :=
  rfl

/-- The first token of a row deepens all that follows it. -/
@[simp] theorem depth_cons (token : Token) (rest : List Token) :
    depth (token :: rest) = token.kind.deepening + depth rest :=
  rfl

/-- After so many open parentheses, a token that needs one stands outside of all. -/
structure Stray (opened : Int) (tokens : List Token) (place : Nat) (token : Token) : Prop where
  found : tokens[place]? = some token
  needs : token.kind.NeedsParen
  outside : opened + depth (tokens.take place) = 0

/-- The first of the tokens that stand outside of all parentheses. -/
structure FirstStray (opened : Int) (tokens : List Token) (place : Nat) (token : Token) :
    Prop where
  stray : Stray opened tokens place token
  first : ∀ earlier < place, ∀ other, ¬Stray opened tokens earlier other

/-- The fault that a token causes outside of all parentheses. -/
def faultOf (token : Token) : OrderFault :=
  if token.kind = .comma then .misplacedComma else .mismatchedParentheses

namespace Stray

/-- The first token is outside if none is open before it. -/
theorem zero_iff :
    Stray opened (token :: rest) 0 other ↔ token = other ∧ token.kind.NeedsParen ∧ opened = 0 := by
  -- Before the first place there are no tokens, so that `opened` is the whole depth.
  constructor
  · rintro ⟨found, needs, outside⟩
    cases found
    exact ⟨rfl, needs, by simpa using outside⟩
  · rintro ⟨rfl, needs, none⟩
    exact ⟨rfl, needs, by simpa using none⟩

/-- A later token is outside as it is after what the first one has opened. -/
theorem succ_iff :
    Stray opened (token :: rest) (place + 1) other ↔
      Stray (opened + token.kind.deepening) rest place other := by
  -- The depth before a later place is that of the first token and of those after it.
  constructor
  · rintro ⟨found, needs, outside⟩
    exact ⟨found, needs, by simpa [Int.add_assoc] using outside⟩
  · rintro ⟨found, needs, outside⟩
    exact ⟨found, needs, by simpa [Int.add_assoc] using outside⟩

/-- If the first token is not outside, all that are come after it. -/
theorem exists_cons_iff (inside : ¬(token.kind.NeedsParen ∧ opened = 0)) :
    (∃ place other, Stray opened (token :: rest) place other) ↔
      ∃ place other, Stray (opened + token.kind.deepening) rest place other := by
  constructor
  · rintro ⟨place, other, stray⟩
    cases place with
    | zero => exact absurd (zero_iff.mp stray).2 inside
    | succ place => exact ⟨place, other, succ_iff.mp stray⟩
  · rintro ⟨place, other, stray⟩
    exact ⟨place + 1, other, succ_iff.mpr stray⟩

end Stray

/-- If the first token is not outside, the first one that is comes after it. -/
theorem FirstStray.succ (inside : ¬(token.kind.NeedsParen ∧ opened = 0))
    (first : FirstStray (opened + token.kind.deepening) rest place other) :
    FirstStray opened (token :: rest) (place + 1) other := by
  refine ⟨Stray.succ_iff.mpr first.stray, fun earlier before another stray => ?_⟩
  -- Earlier strays are the first token, which is inside, or come earlier in the rest.
  cases earlier with
  | zero => exact inside (Stray.zero_iff.mp stray).2
  | succ earlier => exact first.first earlier (by omega) another (Stray.succ_iff.mp stray)

/-- A stack without an open parenthesis is split at its bottom. -/
theorem splitAtParen_of_openCount {stack : List Token} (none : openCount stack = 0) :
    splitAtParen stack = (stack, []) := by
  rcases splitAtParen_cases stack with bottom | ⟨above, opening, below, -, split, -, opens⟩
  · exact bottom
  · -- A parenthesis on the stack would be open.
    simp [split, opens] at none

/-- A stack with an open parenthesis is split there. -/
theorem splitAtParen_of_open {stack : List Token} (some : 0 < openCount stack) :
    ∃ above opening below, splitAtParen stack = (above, opening :: below) := by
  rcases splitAtParen_cases stack with bottom | ⟨above, opening, below, found, -⟩
  · -- What is above the nearest parenthesis holds none.
    have whole : stack.takeWhile (fun top => top.kind != .leftParen) = stack := by
      rw [splitAtParen, List.span_eq_takeWhile_dropWhile, Prod.mk.injEq] at bottom
      exact bottom.1
    have none : openCount stack = 0 := by
      refine openCount_eq_zero fun top member => ?_
      rw [← whole] at member
      simpa using List.all_eq_true.mp List.all_takeWhile top member
    omega
  · exact ⟨above, opening, below, found⟩

/-- At the end, a stack is emitted unless a parenthesis on it is open. -/
theorem finish_eq (stack : List Token) :
    finish stack = if 0 < openCount stack then .error .mismatchedParentheses else .ok stack := by
  -- That a parenthesis is on the stack and that their count is positive are the same.
  simp only [finish, openCount, List.countP_pos_iff, List.any_eq_true]

/-- A step fails at a token that stands outside of all parentheses. -/
theorem step_of_stray {stack : List Token} (needs : token.kind.NeedsParen)
    (none : openCount stack = 0) :
    step respecting stack token = .error (faultOf token) := by
  -- The split reaches the bottom, where a parenthesis should have been.
  have bottom := splitAtParen_of_openCount none
  rcases needs with kind | kind <;> simp [step, kind, bottom, faultOf]

/-- A step succeeds at every other token. -/
theorem exists_step {stack : List Token}
    (inside : ¬(token.kind.NeedsParen ∧ openCount stack = 0)) :
    ∃ emitted next, step respecting stack token = .ok (emitted, next) := by
  -- Only closing parentheses and commas need one on the stack.
  cases kind : token.kind with
  | literal | leftParen | function => simp [step, kind]
  | operator => simp [step, kind]
  | rightParen | comma =>
    have some : 0 < openCount stack :=
      Nat.pos_of_ne_zero fun none => inside ⟨by simp [kind, Kind.NeedsParen], none⟩
    obtain ⟨above, opening, below, found⟩ := splitAtParen_of_open some
    simp [step, kind, found]

/-- A row of tokens fails at its first stray token, or at its end, or else it has an order. -/
theorem orderFrom_cases (respecting : Bool) (tokens : List Token) : ∀ stack : List Token,
    (∃ place token, FirstStray (openCount stack) tokens place token ∧
      orderFrom respecting stack tokens = .error (faultOf token)) ∨
    (¬∃ place token, Stray (openCount stack) tokens place token) ∧
      (0 < openCount stack + depth tokens ∧
          orderFrom respecting stack tokens = .error .mismatchedParentheses ∨
        ¬0 < openCount stack + depth tokens ∧
          ∃ ordered, orderFrom respecting stack tokens = .ok ordered) := by
  -- The induction is on the tokens; the parentheses on the stack are those that are open.
  induction tokens with
  | nil =>
    intro stack
    refine .inr ⟨?_, ?_⟩
    · rintro ⟨place, token, stray⟩
      cases stray.found
    · -- At the end, only a parenthesis that is left on the stack is a fault.
      rw [orderFrom, finish_eq, depth_nil, Int.add_zero, Int.natCast_pos]
      by_cases some : 0 < openCount stack
      · exact .inl ⟨some, if_pos some⟩
      · exact .inr ⟨some, stack, if_neg some⟩
  | cons token rest ih =>
    intro stack
    by_cases outside : token.kind.NeedsParen ∧ openCount stack = 0
    · -- The first token is out of place, and the step over it fails.
      obtain ⟨needs, none⟩ := outside
      have stray : Stray (openCount stack) (token :: rest) 0 token :=
        Stray.zero_iff.mpr ⟨rfl, needs, by omega⟩
      refine .inl ⟨0, token, ⟨stray, fun earlier before => absurd before (by omega)⟩, ?_⟩
      rw [orderFrom, step_of_stray needs none]
    · -- The step leaves as many parentheses open as the tokens so far do.
      obtain ⟨emitted, next, stepped⟩ : ∃ emitted next,
          step respecting stack token = .ok (emitted, next) := exists_step outside
      have count := (step_eq_ok stepped).openCount_eq.1
      have inside : ¬(token.kind.NeedsParen ∧ (openCount stack : Int) = 0) := by
        rwa [Int.natCast_eq_zero]
      have ran : orderFrom respecting stack (token :: rest) =
          (orderFrom respecting next rest).map (emitted ++ ·) := by
        rw [orderFrom, stepped]
      rw [ran, Stray.exists_cons_iff inside, depth_cons, ← Int.add_assoc, ← count]
      -- What comes out of the rest comes out of the whole, one place later.
      rcases ih next with ⟨place, other, first, failed⟩ | ⟨none, ⟨more, failed⟩ | ⟨all, found⟩⟩
      · refine .inl ⟨place + 1, other, .succ inside (count ▸ first), ?_⟩
        rw [failed]
        rfl
      · refine .inr ⟨none, .inl ⟨more, ?_⟩⟩
        rw [failed]
        rfl
      · obtain ⟨ordered, succeeded⟩ := found
        refine .inr ⟨none, .inr ⟨all, emitted ++ ordered, ?_⟩⟩
        rw [succeeded]
        rfl

/-- Only one token is the first of those that stand outside of all parentheses. -/
theorem FirstStray.unique {otherPlace : Nat} (one : FirstStray opened tokens place token)
    (two : FirstStray opened tokens otherPlace other) : place = otherPlace ∧ token = other := by
  -- The earlier one of two would contradict that the other is the first.
  have same : place = otherPlace := by
    rcases Nat.lt_trichotomy place otherPlace with before | same | after
    · exact absurd one.stray (two.first place before token)
    · exact same
    · exact absurd two.stray (one.first otherPlace after other)
  -- At one place there is only one token.
  subst same
  exact ⟨rfl, Option.some.inj (one.stray.found.symm.trans two.stray.found)⟩

/--
Tokens have a postfix order unless a parenthesis or a comma is out of place; the first one tells.

Whatever the tokens are, conversion fails exactly if a closing parenthesis or a comma stands outside
of all parentheses, or if more parentheses are opened than closed. The fault is a misplaced comma if
the first token outside is a comma, and mismatched parentheses in all other cases.
-/
theorem order_fails_iff (respecting : Bool) (tokens : List Token) :
    let misplaced := (∃ place token, Stray 0 tokens place token) ∨ 0 < depth tokens
    let commaFirst := ∃ place token, FirstStray 0 tokens place token ∧ token.kind = .comma
    ((∃ fault, order respecting tokens = .error fault) ↔ misplaced) ∧
      (order respecting tokens = .error .misplacedComma ↔ commaFirst) ∧
      (order respecting tokens = .error .mismatchedParentheses ↔ misplaced ∧ ¬commaFirst) ∧
      ((∃ ordered, order respecting tokens = .ok ordered) ↔ ¬misplaced) := by
  intro misplaced commaFirst
  -- At the start no parenthesis is open, on the stack or in the count.
  have outcome := orderFrom_cases respecting tokens []
  have empty : ((openCount [] : Nat) : Int) = 0 := rfl
  rw [empty, Int.zero_add] at outcome
  change (∃ place token, _ ∧ order respecting tokens = _) ∨
    _ ∧ (_ ∧ order respecting tokens = _ ∨ _ ∧ ∃ ordered, order respecting tokens = _) at outcome
  rcases outcome with ⟨place, token, first, failed⟩ | ⟨none, ended⟩
  · -- The first token outside is a comma or a closing parenthesis.
    have some : misplaced := .inl ⟨place, token, first.stray⟩
    have decided : commaFirst ↔ token.kind = .comma := by
      constructor
      · rintro ⟨otherPlace, other, firstOther, comma⟩
        rwa [(first.unique firstOther).2]
      · exact fun comma => ⟨place, token, first, comma⟩
    rw [failed, decided, faultOf]
    by_cases comma : token.kind = .comma <;> simp [comma, some]
  · -- No token is outside, so that only the end decides.
    have noComma : ¬commaFirst := by
      rintro ⟨place, token, first, -⟩
      exact none ⟨place, token, first.stray⟩
    rcases ended with ⟨more, failed⟩ | ⟨all, ordered, succeeded⟩
    · have some : misplaced := .inr more
      simp [failed, some, noComma]
    · have nothing : ¬misplaced := not_or.mpr ⟨none, all⟩
      simp [succeeded, nothing, noComma]

end Postfix

end Formula
