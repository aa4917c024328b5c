import Formula.Proofs.Grammar.Derivation
import Formula.Proofs.Postfix.Gain

/-! Loose formulas, in which operands may be missing or surplus, and the derivations among them. -/

namespace Formula

/-- The stretches that a loose formula is made of. -/
inductive Stretch where
  /-- An operand by itself. -/
  | operand
  /-- Whatever stands where an operand is awaited, up to the end of its parentheses. -/
  | place
  /-- Whatever comes after an operand, up to the end of its parentheses. -/
  | after

/-- Formulas in which any number of operands may be missing, and any number surplus. -/
inductive Loose : Stretch → Type where
  /-- A written number is an operand. -/
  | numeral (number : PlainNumeral) : Loose .operand
  /-- The variable is an operand. -/
  | letter : Loose .operand
  /-- Whatever is within parentheses is an operand, also when it has commas. -/
  | group (content : Loose .place) : Loose .operand
  /-- A function of the table may have any number of arguments. -/
  | call (operation : Operation) (known : operation.precedence = 0) (content : Loose .place) :
      Loose .operand
  /-- No operand stands where one is awaited. -/
  | gap : Loose .place
  /-- No operand stands before a comma. -/
  | skip (rest : Loose .place) : Loose .place
  /-- An operand stands where one is awaited. -/
  | plain (first : Loose .operand) (rest : Loose .after) : Loose .place
  /-- An operand with a minus sign stands where one is awaited. -/
  | signed (first : Loose .operand) (rest : Loose .after) : Loose .place
  /-- Nothing comes after an operand. -/
  | last : Loose .after
  /-- After an operand, a comma awaits another one. -/
  | comma (rest : Loose .place) : Loose .after
  /-- After an operand, a binary operator awaits another one. -/
  | operator (operation : BinaryOperation) (known : operation ≠ .log) (right : Loose .place) :
      Loose .after
  /-- After an operand, another one stands beside it. -/
  | beside (next : Loose .operand) (rest : Loose .after) : Loose .after

/-- How many operands a stretch is to have, not counting those that its commas await. -/
def Stretch.operands : Stretch → Nat
  | operand | place => 1
  | after => 0

namespace Loose

/-- The tokens that spell a loose formula. -/
def tokens : {stretch : Stretch} → Loose stretch → List Token
  | _, numeral number => [.numeral number]
  | _, letter => [.letter]
  | _, group content => .opening :: (content.tokens ++ [.closing])
  | _, call operation _ content =>
    .named operation :: .opening :: (content.tokens ++ [.closing])
  | _, gap | _, last => []
  | _, skip rest | _, comma rest => .separator :: rest.tokens
  | _, plain first rest | _, beside first rest => first.tokens ++ rest.tokens
  | _, signed first rest => .sign (.unary .neg) :: (first.tokens ++ rest.tokens)
  | _, operator operation _ right => .sign (.binary operation) :: right.tokens

/-- How many commas a stretch has that are not within parentheses of its own. -/
def commas : {stretch : Stretch} → Loose stretch → Nat
  | _, numeral _ | _, letter | _, group _ | _, call .. | _, gap | _, last => 0
  | _, skip rest | _, comma rest => rest.commas + 1
  | _, plain _ rest | _, signed _ rest | _, beside _ rest => rest.commas
  | _, operator _ _ right => right.commas

/-- How many operands are missing where one is awaited, or where a function takes more. -/
def missing : {stretch : Stretch} → Loose stretch → Nat
  | _, numeral _ | _, letter | _, last => 0
  | _, group content => content.missing
  -- There is one more argument than there are commas.
  | _, call operation _ content => content.missing + (operation.arity - (content.commas + 1))
  | _, gap => 1
  | _, skip rest => rest.missing + 1
  | _, plain first rest | _, signed first rest | _, beside first rest =>
    first.missing + rest.missing
  | _, comma rest => rest.missing
  | _, operator _ _ right => right.missing

/-- How many operands are surplus beside others, after a comma, or where a function takes less. -/
def surplus : {stretch : Stretch} → Loose stretch → Nat
  | _, numeral _ | _, letter | _, gap | _, last => 0
  -- Parentheses without a function before them are to have a single operand.
  | _, group content => content.surplus + content.commas
  | _, call operation _ content => content.surplus + (content.commas + 1 - operation.arity)
  | _, skip rest | _, comma rest => rest.surplus
  | _, plain first rest | _, signed first rest => first.surplus + rest.surplus
  | _, beside next rest => next.surplus + rest.surplus + 1
  | _, operator _ _ right => right.surplus

/-- An operand keeps its commas within parentheses. -/
@[simp] theorem commas_operand (formula : Loose .operand) : formula.commas = 0 := by
  -- Only places and what comes after an operand have commas of their own.
  cases formula <;> rfl

/-- A loose formula brings the operands that it is to have, less the missing, and the surplus. -/
theorem gain_tokens {stretch : Stretch} (formula : Loose stretch) :
    gain formula.tokens + formula.missing =
      stretch.operands + formula.commas + formula.surplus := by
  -- A stretch gains what its parts gain, where operators take one operand more than they leave.
  -- Both kinds of operation leave one operand in place of those that they take.
  have signGain : ∀ operation : Operation,
      (Token.sign operation).gain = 1 - (operation.arity : Int) := by
    intro operation
    simp [Token.gain, Token.sign, Token.operands, Kind.isKept]
  have namedGain : ∀ operation : Operation,
      (Token.named operation).gain = 1 - (operation.arity : Int) := by
    intro operation
    simp [Token.gain, Token.named, Token.operands, Kind.isKept]
  have openingGain : Token.opening.gain = 0 := rfl
  have closingGain : Token.closing.gain = 0 := rfl
  have separatorGain : Token.separator.gain = 0 := rfl
  -- A comma is counted where it stands, and used up by the parentheses around it.
  induction formula with
  | numeral number => rfl
  | letter => rfl
  | group content ih =>
    simp only [Stretch.operands] at ih
    simp only [tokens, gain_cons, gain_append, gain_nil, openingGain, closingGain, missing,
      commas, surplus, Stretch.operands]
    omega
  | call operation known content ih =>
    simp only [Stretch.operands] at ih
    simp only [tokens, gain_cons, gain_append, gain_nil, namedGain, openingGain, closingGain,
      missing, commas, surplus, Stretch.operands]
    omega
  | gap => rfl
  | last => rfl
  | skip rest ih | comma rest ih =>
    simp only [Stretch.operands] at ih
    simp only [tokens, gain_cons, separatorGain, missing, commas, surplus, Stretch.operands]
    omega
  | plain first rest ihFirst ihRest | beside first rest ihFirst ihRest =>
    simp only [Stretch.operands, commas_operand] at ihFirst ihRest
    simp only [tokens, gain_append, missing, commas, surplus, Stretch.operands]
    omega
  | signed first rest ihFirst ihRest =>
    simp only [Stretch.operands, commas_operand] at ihFirst ihRest
    have neutral : ((Operation.unary .neg).arity : Int) = 1 := rfl
    simp only [tokens, gain_cons, gain_append, signGain, neutral, missing, commas, surplus,
      Stretch.operands]
    omega
  | operator operation known right ih =>
    simp only [Stretch.operands] at ih
    have takesTwo : ((Operation.binary operation).arity : Int) = 2 := rfl
    simp only [tokens, gain_cons, signGain, takesTwo, missing, commas, surplus,
      Stretch.operands]
    omega

end Loose

namespace Derivation

/-- A sum ends with a product, in whose place any other may stand. -/
theorem exists_last_product (e : Derivation false .sum) :
    ∃ (before : List Token) (last : Derivation false .product),
      e.tokens = before ++ last.tokens ∧
        ∀ other : Derivation false .product, ∃ changed : Derivation false .sum,
          changed.tokens = before ++ other.tokens := by
  -- Only the right side of the last sign is changed.
  cases e with
  | add left right =>
    exact ⟨left.tokens ++ [.sign (.binary .add)], right, by simp [tokens],
      fun other => ⟨.add left other, by simp [tokens]⟩⟩
  | subtract left right =>
    exact ⟨left.tokens ++ [.sign (.binary .sub)], right, by simp [tokens],
      fun other => ⟨.subtract left other, by simp [tokens]⟩⟩
  | ofProduct inner => exact ⟨[], inner, rfl, fun other => ⟨.ofProduct other, rfl⟩⟩

/-- A product ends with a power, in whose place any other may stand. -/
theorem exists_last_power (e : Derivation false .product) :
    ∃ (before : List Token) (last : Derivation false .power),
      e.tokens = before ++ last.tokens ∧
        ∀ other : Derivation false .power, ∃ changed : Derivation false .product,
          changed.tokens = before ++ other.tokens := by
  -- Only the right side of the last sign is changed.
  cases e with
  | multiply left right =>
    exact ⟨left.tokens ++ [.sign (.binary .mul)], right, by simp [tokens],
      fun other => ⟨.multiply left other, by simp [tokens]⟩⟩
  | divide left right =>
    exact ⟨left.tokens ++ [.sign (.binary .div)], right, by simp [tokens],
      fun other => ⟨.divide left other, by simp [tokens]⟩⟩
  | ofPower inner => exact ⟨[], inner, rfl, fun other => ⟨.ofPower other, rfl⟩⟩

/-- A sum may be continued with any binary operator and another operand. -/
theorem exists_continued (e : Derivation false .sum) {operation : BinaryOperation}
    (known : operation ≠ .log) (operand : Derivation false .signed) :
    ∃ continued : Derivation false .sum,
      continued.tokens = e.tokens ++ .sign (.binary operation) :: operand.tokens := by
  -- The operator takes as much of the end of the sum as binds more strongly.
  cases operation with
  | add => exact ⟨.add e (.ofPower (.ofSigned operand)), rfl⟩
  | sub => exact ⟨.subtract e (.ofPower (.ofSigned operand)), rfl⟩
  | mul =>
    obtain ⟨before, last, split, change⟩ := e.exists_last_product
    obtain ⟨changed, written⟩ := change (.multiply last (.ofSigned operand))
    exact ⟨changed, by simp [written, split, tokens]⟩
  | div =>
    obtain ⟨before, last, split, change⟩ := e.exists_last_product
    obtain ⟨changed, written⟩ := change (.divide last (.ofSigned operand))
    exact ⟨changed, by simp [written, split, tokens]⟩
  | power =>
    obtain ⟨before, last, split, change⟩ := e.exists_last_product
    -- The exponent goes to the last power of the last product.
    obtain ⟨within, base, splitLast, changeLast⟩ := last.exists_last_power
    obtain ⟨factor, writtenLast⟩ := changeLast (.powerLeft rfl base operand)
    obtain ⟨changed, written⟩ := change factor
    exact ⟨changed, by simp [written, split, writtenLast, splitLast, tokens]⟩
  | log => exact absurd rfl known

/-- Tokens that are a derivation together with any operand after them. -/
def Leads (before : List Token) : Prop :=
  ∀ operand : Derivation false .signed, ∃ e : Derivation false .sum,
    e.tokens = before ++ operand.tokens

/-- An operand is a derivation by itself. -/
theorem Leads.nil : Leads [] :=
  fun operand => ⟨.ofProduct (.ofPower (.ofSigned operand)), rfl⟩

/-- A derivation with a binary operator leads to another operand. -/
theorem Leads.sign (e : Derivation false .sum) {operation : BinaryOperation}
    (known : operation ≠ .log) : Leads (e.tokens ++ [.sign (.binary operation)]) := by
  -- The operand after the operator continues the derivation before it.
  intro operand
  obtain ⟨continued, written⟩ := e.exists_continued known operand
  exact ⟨continued, by simp [written]⟩

/-- Derivations with so many commas between them. -/
def Row (commas : Nat) (tokens : List Token) : Prop :=
  ∃ (first : Derivation false .sum) (others : List (Derivation false .sum)),
    others.length = commas ∧
      tokens = first.tokens ++ others.flatMap fun other => .separator :: other.tokens

end Derivation

/-- What the tokens of a stretch derive, with so many commas among them. -/
def Stretch.Derived (commas : Nat) (tokens : List Token) : Stretch → Prop
  | operand => ∃ e : Derivation false .atom, e.tokens = tokens
  | place => ∀ before, Derivation.Leads before → Derivation.Row commas (before ++ tokens)
  | after => ∀ e : Derivation false .sum, Derivation.Row commas (e.tokens ++ tokens)

namespace Loose

/-- A loose formula in which no operand is missing or surplus is derived. -/
theorem derived {stretch : Stretch} (formula : Loose stretch) (complete : formula.missing = 0)
    (exact : formula.surplus = 0) : stretch.Derived formula.commas formula.tokens := by
  -- What comes before a stretch is itself part of the derivation that the stretch completes.
  induction formula with
  | numeral number => exact ⟨.numeral number, rfl⟩
  | letter => exact ⟨.letter, rfl⟩
  | group content ih =>
    simp only [missing, surplus] at complete exact
    obtain ⟨first, others, count, split⟩ := ih complete (by omega) [] .nil
    -- Surplus commas are counted, so there are none.
    have alone : others = [] := List.length_eq_zero_iff.mp (by omega)
    subst alone
    simp only [List.nil_append, List.flatMap_nil, List.append_nil] at split
    exact ⟨.group first, by simp [Derivation.tokens, tokens, split]⟩
  | call operation known content ih =>
    simp only [missing, surplus] at complete exact
    obtain ⟨first, others, count, split⟩ := ih (by omega) (by omega) [] .nil
    have arguments : others.length + 1 = operation.arity := by omega
    -- There are as many derivations between the parentheses as the function takes.
    cases operation with
    | unary operation =>
      obtain rfl : others = [] := List.length_eq_zero_iff.mp (Nat.succ.inj arguments)
      simp only [List.nil_append, List.flatMap_nil, List.append_nil] at split
      have named : operation ≠ .neg := by
        rintro rfl
        cases known
      exact ⟨.call operation named first, by simp [Derivation.tokens, tokens, split]⟩
    | binary operation =>
      obtain ⟨base, rfl⟩ := List.length_eq_one_iff.mp (Nat.succ.inj arguments)
      simp only [List.nil_append, List.flatMap_cons, List.flatMap_nil, List.append_nil] at split
      cases operation with
      | log => exact ⟨.logarithm first base, by simp [Derivation.tokens, tokens, split]⟩
      | add | sub | mul | div | power => cases known
  | gap => cases complete
  | skip rest => cases complete
  | plain first rest ihFirst ihRest =>
    simp only [missing, surplus] at complete exact
    intro before leads
    obtain ⟨atom, written⟩ := ihFirst (by omega) (by omega)
    obtain ⟨e, joined⟩ := leads (.ofAtom atom)
    have row := ihRest (by omega) (by omega) e
    rwa [joined, Derivation.tokens, written, List.append_assoc] at row
  | signed first rest ihFirst ihRest =>
    simp only [missing, surplus] at complete exact
    intro before leads
    obtain ⟨atom, written⟩ := ihFirst (by omega) (by omega)
    obtain ⟨e, joined⟩ := leads (.negate atom)
    have row := ihRest (by omega) (by omega) e
    rwa [joined, Derivation.tokens, written, List.append_assoc] at row
  | last =>
    intro e
    exact ⟨e, [], rfl, by simp [tokens]⟩
  | comma rest ih =>
    intro e
    obtain ⟨first, others, count, split⟩ := ih complete exact [] .nil
    rw [List.nil_append] at split
    exact ⟨e, first :: others, by simp [commas, count], by simp [tokens, split]⟩
  | operator operation known right ih =>
    intro e
    have row := ih complete exact _ (.sign e known)
    rwa [List.append_assoc] at row
  | beside next rest => cases exact

/-- A loose formula in which nothing is missing, and with nothing but its due, is derived. -/
theorem exists_derivation (formula : Loose .place) (complete : formula.missing = 0)
    (exact : formula.surplus = 0) (single : formula.commas = 0) :
    ∃ e : Derivation false .sum, e.tokens = formula.tokens := by
  -- Without commas, the row of derivations is a single one.
  obtain ⟨first, others, count, split⟩ := formula.derived complete exact [] .nil
  have alone : others = [] := List.length_eq_zero_iff.mp (by omega)
  subst alone
  exact ⟨first, by simpa using split.symm⟩

end Loose

end Formula
