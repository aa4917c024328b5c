import Formula.Proofs.Grammar.Loose

/-! Tokens tell what is missing in a loose formula, and nothing is missing in a derivation. -/

namespace Formula

/-- What the first token of a stretch announces. -/
inductive Cue where
  | ending
  | comma
  | sign
  | operand

/-- Each kind of token announces one thing, and so does the end. -/
def Cue.of : Option Kind → Cue
  | none | some .rightParen => ending
  | some .comma => comma
  | some .operator => sign
  | some _ => operand

/-- Where a stretch ends, no more tokens come, or a parenthesis is closed. -/
def Ended (rest : List Token) : Prop :=
  Cue.of (rest.head?.map Token.kind) = .ending

namespace Loose

/-- What a loose formula starts with. -/
def cue : {stretch : Stretch} → Loose stretch → Cue
  | _, gap | _, last => .ending
  | _, skip _ | _, comma _ => .comma
  | _, signed .. | _, operator .. => .sign
  | _, numeral _ | _, letter | _, group _ | _, call .. | _, plain .. | _, beside .. => .operand

/-- The first token announces what a loose formula starts with. -/
theorem cue_tokens {stretch : Stretch} (formula : Loose stretch) {rest : List Token}
    (ended : Ended rest) :
    Cue.of ((formula.tokens ++ rest).head?.map Token.kind) = formula.cue := by
  -- Only operands do not tell by their own constructor, but have a first token each.
  have leads : ∀ operand : Loose .operand, ∃ first others,
      operand.tokens = first :: others ∧ Cue.of (some first.kind) = .operand := by
    intro operand
    cases operand <;> exact ⟨_, _, rfl, rfl⟩
  cases formula with
  | gap | last => exact ended
  | plain first after | beside first after =>
    obtain ⟨token, others, written, leads⟩ := leads first
    simpa [tokens, written, cue] using leads
  | _ => rfl

/-- Two loose formulas with the same tokens start with the same, as far as one can tell. -/
theorem cue_eq {stretch : Stretch} {left right : Loose stretch} {rest others : List Token}
    (ended : stretch ≠ .operand → Ended rest ∧ Ended others)
    (same : left.tokens ++ rest = right.tokens ++ others) (apart : stretch ≠ .operand) :
    left.cue = right.cue := by
  -- What is announced depends on the tokens only.
  obtain ⟨endedLeft, endedRight⟩ := ended apart
  rw [← left.cue_tokens endedLeft, ← right.cue_tokens endedRight, same]

/-- Tokens that begin with a stretch tell what it misses, how many commas it has, and its end. -/
def Determined {stretch : Stretch} (left : Loose stretch) : Prop :=
  ∀ (right : Loose stretch) {rest others : List Token},
    (stretch ≠ .operand → Ended rest ∧ Ended others) →
      left.tokens ++ rest = right.tokens ++ others →
        left.missing = right.missing ∧ left.commas = right.commas ∧ rest = others

/-- Between parentheses, a stretch is determined up to the one that closes them. -/
theorem Determined.enclosed {content other : Loose .place} (determined : content.Determined)
    {rest others : List Token}
    (same : content.tokens ++ .closing :: rest = other.tokens ++ .closing :: others) :
    content.missing = other.missing ∧ content.commas = other.commas ∧ rest = others := by
  -- The closing parenthesis ends the stretch in both readings.
  have ended : Ended (.closing :: rest) ∧ Ended (.closing :: others) := ⟨rfl, rfl⟩
  obtain ⟨missing, commas, outside⟩ := determined other (fun _ => ended) same
  exact ⟨missing, commas, (List.cons.inj outside).2⟩

/-- An operand and what comes after it are determined one after the other. -/
theorem Determined.followed {first other : Loose .operand} {after later : Loose .after}
    (determined : first.Determined) (determinedAfter : after.Determined)
    {rest others : List Token} (ended : Ended rest ∧ Ended others)
    (same : first.tokens ++ (after.tokens ++ rest) = other.tokens ++ (later.tokens ++ others)) :
    first.missing + after.missing = other.missing + later.missing ∧
      after.commas = later.commas ∧ rest = others := by
  -- An operand is determined whatever follows it, so that the same tokens are left after it.
  obtain ⟨missing, -, remaining⟩ := determined other (fun apart => absurd rfl apart) same
  obtain ⟨missingAfter, commas, outside⟩ := determinedAfter later (fun _ => ended) remaining
  exact ⟨by rw [missing, missingAfter], commas, outside⟩

/-- Tokens determine how many operands are missing from a loose formula, and its commas. -/
theorem determined {stretch : Stretch} (left : Loose stretch) : left.Determined := by
  have atPlace : Stretch.place ≠ .operand := by simp
  have atAfter : Stretch.after ≠ .operand := by simp
  -- The first token leaves no choice, and the tokens after it are read by induction.
  induction left with
  | numeral | letter =>
    intro right rest others ended same
    cases right with
    | numeral | letter => exact ⟨rfl, rfl, (List.cons.inj same).2⟩
    | group | call => cases congrArg Token.kind (List.cons.inj same).1
  | group content ih =>
    intro right rest others ended same
    cases right with
    | numeral | letter | call => cases congrArg Token.kind (List.cons.inj same).1
    | group other =>
      obtain ⟨missing, -, outside⟩ := ih.enclosed (by simpa [tokens] using same)
      exact ⟨missing, rfl, outside⟩
  | call operation known content ih =>
    intro right rest others ended same
    cases right with
    | numeral | letter | group => cases congrArg Token.kind (List.cons.inj same).1
    | call operation' known' other =>
      obtain ⟨missing, commas, outside⟩ :=
        ih.enclosed (by simpa [tokens] using (List.cons.inj same).2)
      -- How many arguments are missing depends on the function, which its name tells.
      have sameSymbol : operation.symbol = operation'.symbol :=
        congrArg Token.text (List.cons.inj same).1
      obtain rfl := Operation.symbol_injective sameSymbol
      exact ⟨by simp only [Loose.missing, missing, commas], rfl, outside⟩
  | gap =>
    intro right rest others ended same
    cases right with
    | gap => exact ⟨rfl, rfl, same⟩
    | skip | plain | signed => cases cue_eq ended same atPlace
  | last =>
    intro right rest others ended same
    cases right with
    | last => exact ⟨rfl, rfl, same⟩
    | comma | operator | beside => cases cue_eq ended same atAfter
  | skip rest ih =>
    intro right rest others ended same
    cases right with
    | skip other =>
      obtain ⟨missing, commas, outside⟩ := ih other ended (List.cons.inj same).2
      exact ⟨congrArg (· + 1) missing, congrArg (· + 1) commas, outside⟩
    | gap | plain | signed => cases cue_eq ended same atPlace
  | comma rest ih =>
    intro right rest others ended same
    cases right with
    | comma other =>
      obtain ⟨missing, commas, outside⟩ := ih other (fun _ => ended atAfter) (List.cons.inj same).2
      exact ⟨missing, congrArg (· + 1) commas, outside⟩
    | last | operator | beside => cases cue_eq ended same atAfter
  | operator operation known right ih =>
    intro right rest others ended same
    cases right with
    | operator _ _ other => exact ih other (fun _ => ended atAfter) (List.cons.inj same).2
    | last | comma | beside => cases cue_eq ended same atAfter
  | plain first after ihFirst ihAfter =>
    intro right rest others ended same
    cases right with
    | plain other later =>
      exact ihFirst.followed ihAfter (ended atPlace) (by simpa [tokens] using same)
    | gap | skip | signed => cases cue_eq ended same atPlace
  | signed first after ihFirst ihAfter =>
    intro right rest others ended same
    cases right with
    | signed other later =>
      exact ihFirst.followed ihAfter (ended atPlace)
        (by simpa [tokens] using (List.cons.inj same).2)
    | gap | skip | plain => cases cue_eq ended same atPlace
  | beside first after ihFirst ihAfter =>
    intro right rest others ended same
    cases right with
    | beside other later =>
      exact ihFirst.followed ihAfter (ended atAfter) (by simpa [tokens] using same)
    | last | comma | operator => cases cue_eq ended same atAfter

end Loose

/-- Tokens that may stand where an operand is awaited, before whatever comes after one. -/
def Whole (tokens : List Token) : Prop :=
  ∀ after : Loose .after, ∃ formula : Loose .place,
    formula.tokens = tokens ++ after.tokens ∧ formula.missing = after.missing ∧
      formula.commas = after.commas

/-- Tokens on both sides of a binary operator may stand with it where an operand is awaited. -/
theorem Whole.joined {left right : List Token} (first : Whole left) (second : Whole right)
    {operation : BinaryOperation} (known : operation ≠ .log) :
    Whole (left ++ .sign (.binary operation) :: right) := by
  -- The right row stands before what comes after, and both together come after the left row.
  intro after
  obtain ⟨inner, written, missing, commas⟩ := second after
  obtain ⟨formula, writtenAll, missingAll, commasAll⟩ := first (.operator operation known inner)
  refine ⟨formula, ?_, missingAll.trans missing, commasAll.trans commas⟩
  simp [writtenAll, Loose.tokens, written]

/-- What derivations of a phrase are among loose formulas. -/
def Phrase.Complete (tokens : List Token) : Phrase → Prop
  | atom => ∃ operand : Loose .operand, operand.tokens = tokens ∧ operand.missing = 0
  | sum | product | power | signed => Whole tokens

/-- Every derivation is a loose formula in which no operand is missing. -/
theorem Derivation.complete {respecting : Bool} {phrase : Phrase}
    (e : Derivation respecting phrase) : phrase.Complete e.tokens := by
  -- The two sides of an operator are taken apart from left to right, whichever binds first.
  induction e with
  | add _ _ left right => exact left.joined right nofun
  | subtract _ _ left right => exact left.joined right nofun
  | multiply _ _ left right => exact left.joined right nofun
  | divide _ _ left right => exact left.joined right nofun
  | powerLeft _ _ _ left right => exact left.joined right nofun
  | powerRight _ _ _ left right => exact left.joined right nofun
  | negate _ operand =>
    intro after
    obtain ⟨first, written, missing⟩ := operand
    exact ⟨.signed first after, by simp [Loose.tokens, Derivation.tokens, written],
      by simp [Loose.missing, missing], rfl⟩
  | ofAtom _ inner =>
    intro after
    obtain ⟨first, written, missing⟩ := inner
    exact ⟨.plain first after, by simp [Loose.tokens, Derivation.tokens, written],
      by simp [Loose.missing, missing], rfl⟩
  | ofProduct _ inner | ofPower _ inner | ofSigned _ inner => exact inner
  | numeral number => exact ⟨.numeral number, rfl, rfl⟩
  | letter => exact ⟨.letter, rfl, rfl⟩
  | call operation named _ argument =>
    obtain ⟨content, written, missing, commas⟩ := argument .last
    have known : (Operation.unary operation).precedence = 0 := by
      cases operation <;> first | rfl | exact absurd rfl named
    refine ⟨.call (.unary operation) known content, ?_, ?_⟩
    · simp [Loose.tokens, Derivation.tokens, written]
    · simp [Loose.missing, missing, Operation.arity]
  | logarithm _ _ argument base =>
    obtain ⟨second, writtenSecond, missingSecond, single⟩ := base .last
    obtain ⟨content, written, missing, commas⟩ := argument (.comma second)
    refine ⟨.call (.binary .log) rfl content, ?_, ?_⟩
    · simp [Loose.tokens, Derivation.tokens, written, writtenSecond]
    · simp [Loose.missing, missing, missingSecond, commas, Loose.commas, single, Operation.arity]
  | group _ inner =>
    obtain ⟨content, written, missing, -⟩ := inner .last
    refine ⟨.group content, ?_, ?_⟩
    · simp [Loose.tokens, Derivation.tokens, written]
    · simp [Loose.missing, missing]

/-- Among loose formulas, derivations are those in which no operand is missing or surplus. -/
theorem Loose.missing_eq_zero_iff (formula : Loose .place) (single : formula.commas = 0)
    (even : formula.missing = formula.surplus) :
    formula.missing = 0 ↔ ∃ e : Derivation false .sum, e.tokens = formula.tokens := by
  -- One direction derives the formula, and the other reads a derivation as a formula.
  constructor
  · intro complete
    exact formula.exists_derivation complete (by omega) single
  · rintro ⟨e, same⟩
    obtain ⟨other, written, missing, -⟩ := e.complete .last
    have sameTokens : other.tokens ++ [] = formula.tokens ++ [] := by
      simp [written, same, tokens]
    -- The derivation is one way to read the tokens, and there is no other.
    have nothing : Ended [] := rfl
    obtain ⟨sameMissing, -, -⟩ := other.determined formula (fun _ => ⟨nothing, nothing⟩) sameTokens
    rw [← sameMissing, missing]
    rfl

end Formula
