import Formula.Proofs.Grammar.Loose

/-! Tokens that are well placed and balanced spell a loose formula. -/

namespace Formula

/-- The tokens that loose formulas are spelled with. -/
inductive Token.Known : Token → Prop where
  /-- The variable. -/
  | letter : Known .letter
  /-- A number that can be read. -/
  | numeral (number : PlainNumeral) : Known (.numeral number)
  /-- A binary operator. -/
  | sign (operation : BinaryOperation) (known : operation ≠ .log) :
      Known (.sign (.binary operation))
  /-- A minus sign with a single operand. -/
  | minus : Known (.sign (.unary .neg))
  /-- A function of the table. -/
  | named (operation : Operation) (known : operation.precedence = 0) : Known (.named operation)
  /-- An opening parenthesis. -/
  | opening : Known .opening
  /-- A closing parenthesis. -/
  | closing : Known .closing
  /-- A comma. -/
  | separator : Known .separator

/-- A token is known when it is spelled well, and means something where it is evaluated. -/
theorem Token.Spelled.known {token : Token} (spelled : token.Spelled)
    (readable : token.kind = .literal → token.text ≠ variableName →
      (readFloat? token.text).isSome)
    (tabled : token.kind ≠ .literal → token.kind.isKept = true →
      (Operation.ofSymbol? token.text).isSome) : token.Known := by
  -- The spelling leaves little choice, except for numerals and for the names of functions.
  obtain ⟨text, kind⟩ := token
  cases kind with
  | literal =>
    simp only [Spelled] at spelled
    by_cases isVariable : text = variableName
    · subst isVariable
      exact .letter
    · have isNumeral := spelled.resolve_left isVariable
      have read : (readFloat? (String.ofList text.toList)).isSome := by
        rw [String.ofList_toList]
        exact readable rfl isVariable
      obtain ⟨number, written⟩ := isNumeral.exists_plain read
      have same : numeral number = ⟨text, .literal⟩ := by
        simp only [numeral, written, String.ofList_toList]
      exact same ▸ .numeral number
  | operator =>
    simp only [Spelled, List.mem_cons, List.not_mem_nil, or_false] at spelled
    rcases spelled with rfl | rfl | rfl | rfl | rfl | rfl
    · exact .sign .add (by decide)
    · exact .sign .sub (by decide)
    · exact .sign .mul (by decide)
    · exact .sign .div (by decide)
    · exact .sign .power (by decide)
    · exact .minus
  | function =>
    obtain ⟨-, letters, -⟩ := spelled
    obtain ⟨operation, found⟩ := Option.isSome_iff_exists.mp (tabled (by simp) rfl)
    obtain rfl := Operation.ofSymbol?_eq_some_iff.mp found
    -- The symbols of the operators are not made of letters.
    have signs : ∀ operation ∈ Operation.all, operation.precedence ≠ 0 →
        operation.symbol.toList.all Char.isAlpha = false := by decide
    by_cases known : operation.precedence = 0
    · exact .named operation known
    · have unlettered := signs operation operation.mem_all known
      rw [List.all_eq_true.mpr letters] at unlettered
      cases unlettered
  | leftParen =>
    obtain rfl : text = "(" := spelled
    exact .opening
  | rightParen =>
    obtain rfl : text = ")" := spelled
    exact .closing
  | comma =>
    obtain rfl : text = "," := spelled
    exact .separator

/-- Tokens that a loose formula is still to be read from, with so many parentheses open. -/
structure Pending (policy : ConflictPolicy) (depth : Nat) (previous : Token)
    (tokens : List Token) : Prop where
  known : ∀ token ∈ tokens, token.Known
  placed : WellPlaced policy (some previous) tokens
  balanced : Postfix.Balanced depth tokens

/-- What may come at the end of a stretch that has so many commas, with so many open parentheses. -/
inductive Closed (policy : ConflictPolicy) : Nat → Nat → List Token → Prop where
  /-- Outside of parentheses, there are no commas, and nothing comes any more. -/
  | nothing : Closed policy 0 0 []
  /-- Within parentheses, the innermost ones are closed. -/
  | closing {depth commas : Nat} {rest : List Token}
      (pending : Pending policy depth .closing rest) :
      Closed policy (depth + 1) commas (.closing :: rest)

section

variable {policy : ConflictPolicy} {depth : Nat} {previous : Token}

/-- Within parentheses, one comma more is no matter. -/
theorem Closed.more {commas : Nat} {tokens : List Token}
    (closed : Closed policy depth commas tokens) (inside : 0 < depth) :
    Closed policy depth (commas + 1) tokens := by
  -- Commas are counted outside of parentheses only.
  cases closed with
  | nothing => omega
  | closing pending => exact .closing pending

namespace Pending

variable {token : Token} {rest tokens : List Token}

/-- Tokens other than parentheses leave as many of these open. -/
theorem tail (pending : Pending policy depth previous (token :: rest))
    (isKept : token.kind.isKept = true) : Pending policy depth token rest := by
  -- The depth changes only at parentheses, and commas do not reach here.
  have balanced := pending.balanced
  refine ⟨fun other member => pending.known other (List.mem_cons_of_mem token member),
    pending.placed.2, ?_⟩
  cases kind : token.kind with
  | literal | operator | function => simpa [Postfix.Balanced, kind] using balanced
  | leftParen | rightParen | comma => simp [kind, Kind.isKept] at isKept

/-- An opening parenthesis is one more that is open. -/
theorem opened (pending : Pending policy depth previous (.opening :: rest)) :
    Pending policy (depth + 1) .opening rest :=
  ⟨fun other member => pending.known other (List.mem_cons_of_mem _ member), pending.placed.2,
    pending.balanced⟩

/-- Where no more tokens come, or a parenthesis is closed, a stretch is at its end. -/
theorem ended (pending : Pending policy depth previous tokens)
    (ending : tokens = [] ∨ ∃ rest, tokens = .closing :: rest) : Closed policy depth 0 tokens := by
  -- Balance tells whether a parenthesis is open.
  have balanced := pending.balanced
  rcases ending with rfl | ⟨rest, rfl⟩
  · obtain rfl : depth = 0 := balanced
    exact .nothing
  · obtain ⟨inside, remaining⟩ : 0 < depth ∧ Postfix.Balanced (depth - 1) rest := balanced
    obtain ⟨outer, rfl⟩ := Nat.exists_eq_add_of_lt inside
    rw [Nat.zero_add] at remaining ⊢
    exact .closing ⟨fun other member => pending.known other (List.mem_cons_of_mem _ member),
      pending.placed.2, remaining⟩

/-- A comma is within parentheses, and leaves these open. -/
theorem separated (pending : Pending policy depth previous (.separator :: rest)) :
    0 < depth ∧ Pending policy depth .separator rest := by
  -- A balanced comma is within parentheses.
  obtain ⟨inside, remaining⟩ : 0 < depth ∧ Postfix.Balanced depth rest := pending.balanced
  exact ⟨inside, fun other member => pending.known other (List.mem_cons_of_mem _ member),
    pending.placed.2, remaining⟩

end Pending

mutual

/-- Where an operand starts, an operand is read together with what comes after it. -/
theorem Pending.exists_chain {depth : Nat} {previous token : Token} {rest : List Token}
    (pending : Pending policy depth previous (token :: rest))
    (starts : token.kind.startsOperand = true) :
    ∃ (first : Loose .operand) (after : Loose .after) (later : List Token),
      token :: rest = first.tokens ++ (after.tokens ++ later) ∧
        Closed policy depth after.commas later := by
  -- A token by itself, or a pair of parentheses with all between them, is the operand.
  have known := pending.known token (by simp)
  cases known with
  | letter =>
    obtain ⟨after, later, split, closed⟩ := (pending.tail rfl).exists_after rfl
    exact ⟨.letter, after, later, by rw [split]; rfl, closed⟩
  | numeral number =>
    obtain ⟨after, later, split, closed⟩ := (pending.tail rfl).exists_after rfl
    exact ⟨.numeral number, after, later, by rw [split]; rfl, closed⟩
  | opening =>
    -- The content ends with the parenthesis that closes this one, after which the rest comes.
    obtain ⟨content, inner, split, closedInner⟩ := pending.opened.exists_place rfl
    cases closedInner with
    | @closing _ _ outside outer =>
      have shorter : outside.length < rest.length := by
        rw [split]
        simp
        omega
      obtain ⟨after, later, splitOutside, closed⟩ := outer.exists_after rfl
      exact ⟨.group content, after, later, by simp [Loose.tokens, split, splitOutside], closed⟩
  | named operation named =>
    -- A name is never without the parenthesis that comes after it.
    obtain ⟨-, isOpening⟩ := pending.placed.1.function rfl
    cases rest with
    | nil => cases isOpening
    | cons next more =>
      have knownNext := pending.known next (by simp)
      obtain rfl : next = .opening := by
        cases knownNext <;> first | rfl | cases isOpening
      obtain ⟨content, inner, split, closedInner⟩ := (pending.tail rfl).opened.exists_place rfl
      cases closedInner with
      | @closing _ _ outside outer =>
        have shorter : outside.length < more.length := by
          rw [split]
          simp
          omega
        obtain ⟨after, later, splitOutside, closed⟩ := outer.exists_after rfl
        exact ⟨.call operation named content, after, later,
          by simp [Loose.tokens, split, splitOutside], closed⟩
  | sign | minus | closing | separator => cases starts
termination_by ((token :: rest).length, 0)

/-- Where an operand is awaited, whatever comes is read to the end of its parentheses. -/
theorem Pending.exists_place {depth : Nat} {previous : Token} {tokens : List Token}
    (pending : Pending policy depth previous tokens)
    (awaits : previous.kind.awaitsOperand = true) :
    ∃ (content : Loose .place) (later : List Token),
      tokens = content.tokens ++ later ∧ Closed policy depth content.commas later := by
  -- The first token tells which rule is applied.
  match tokens, pending with
  | [], pending => exact ⟨.gap, [], rfl, pending.ended (.inl rfl)⟩
  | token :: rest, pending =>
    have known := pending.known token (by simp)
    cases known with
    | letter | numeral | named | opening =>
      obtain ⟨first, after, later, split, closed⟩ := pending.exists_chain rfl
      exact ⟨.plain first after, later, by rw [split]; simp [Loose.tokens], closed⟩
    | minus =>
      -- The sign has its operand directly after it.
      have starts := (pending.placed.1.unary rfl).resolve_left nofun
      cases rest with
      | nil => cases starts.2
      | cons next more =>
        obtain ⟨first, after, later, split, closed⟩ :=
          (pending.tail rfl).exists_chain starts.2
        exact ⟨.signed first after, later, by rw [split]; simp [Loose.tokens], closed⟩
    | sign operation known =>
      -- A binary operator never stands where an operand is awaited.
      have binary : (Token.sign (.binary operation)).isUnaryMinus = false := by
        cases operation <;> rfl
      have ends : previous.kind.endsOperand = true := pending.placed.1.binary rfl binary
      rw [Kind.awaitsOperand_of_endsOperand ends] at awaits
      cases awaits
    | closing => exact ⟨.gap, _, rfl, pending.ended (.inr ⟨rest, rfl⟩)⟩
    | separator =>
      obtain ⟨inside, remaining⟩ := pending.separated
      obtain ⟨content, later, split, closed⟩ := remaining.exists_place rfl
      exact ⟨.skip content, later, by rw [split]; rfl, closed.more inside⟩
termination_by (tokens.length, 1)

/-- After an operand, whatever comes is read to the end of its parentheses. -/
theorem Pending.exists_after {depth : Nat} {previous : Token} {tokens : List Token}
    (pending : Pending policy depth previous tokens)
    (ends : previous.kind.endsOperand = true) :
    ∃ (after : Loose .after) (later : List Token),
      tokens = after.tokens ++ later ∧ Closed policy depth after.commas later := by
  -- The first token tells which rule is applied.
  match tokens, pending with
  | [], pending => exact ⟨.last, [], rfl, pending.ended (.inl rfl)⟩
  | token :: rest, pending =>
    have known := pending.known token (by simp)
    have busy := Kind.awaitsOperand_of_endsOperand ends
    cases known with
    | letter | numeral | opening =>
      obtain ⟨next, after, later, split, closed⟩ := pending.exists_chain rfl
      exact ⟨.beside next after, later, by rw [split]; simp [Loose.tokens], closed⟩
    | sign operation known =>
      obtain ⟨right, later, split, closed⟩ := (pending.tail rfl).exists_place rfl
      exact ⟨.operator operation known right, later, by rw [split]; rfl, closed⟩
    | closing => exact ⟨.last, _, rfl, pending.ended (.inr ⟨rest, rfl⟩)⟩
    | separator =>
      obtain ⟨inside, remaining⟩ := pending.separated
      obtain ⟨content, later, split, closed⟩ := remaining.exists_place rfl
      exact ⟨.comma content, later, by rw [split]; rfl, closed.more inside⟩
    | minus =>
      -- A sign with a single operand stands only where an operand is awaited.
      have awaits : previous.kind.awaitsOperand = true :=
        ((pending.placed.1.unary rfl).resolve_left nofun).1
      rw [busy] at awaits
      cases awaits
    | named operation known =>
      -- So does the name of a function.
      have awaits : previous.kind.awaitsOperand = true := (pending.placed.1.function rfl).1
      rw [busy] at awaits
      cases awaits
termination_by (tokens.length, 1)

end

end

end Formula
